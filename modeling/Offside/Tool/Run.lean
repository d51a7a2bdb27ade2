import Offside.Compile
import Offside.Log
import Offside.Tool.Host
import Offside.Tool.Options

/-!
# Running the tool

The tool compiles one source, or every source below a directory, and stops at the
first thing that goes wrong. A source is compiled before anything is written for
it, so a source that does not compile leaves no trace. Files written before a
failure stay.

Everything runs against a host. What happens is noted on the way; the notes that
the verbosity lets through come out on the standard error, followed by the error
if there is one.
-/

namespace Offside.Tool

/-- Something that happened during a run. -/
inductive Notice where
  | compiler (event : Event)
  | compiling (origin : Path) (bytes : Nat)
  | wrote (path : Path) (bytes : Nat)
  | compiledDirectory (files : Nat) (root : Path)
  deriving DecidableEq, Repr

open LogEntry in
/-- The log entry of a notice. -/
def Notice.entry : Notice → LogEntry
  | compiler event => event.entry
  | compiling origin bytes =>
      ⟨.debug, "gotype_cli",
        "compiling" ++ field "origin" origin.quoted ++ count "bytes" bytes⟩
  | wrote path bytes =>
      ⟨.debug, "gotype_cli",
        "wrote output" ++ field "path" path.quoted ++ count "bytes" bytes⟩
  | compiledDirectory files root =>
      ⟨.info, "gotype_cli",
        "compiled directory" ++ count "files" files ++ field "root" root.quoted⟩

/-- Why a run failed: what was being done, and what went wrong. -/
inductive RunError where
  | readInput (path : Path) (cause : HostError)
  | walk (root path : Path) (cause : HostError)
  | readSource (path : Path) (cause : HostError)
  | compilation (origin : Path) (cause : Failure)
  | createDirectory (path : Path) (cause : HostError)
  | writeOutput (path : Path) (cause : HostError)
  deriving DecidableEq, Repr

namespace RunError

/-- What was being done. -/
def context : RunError → String
  | readInput path _ => "failed to read input file " ++ path.quoted
  | walk root _ _ => "failed to walk " ++ root.quoted
  | readSource path _ => "failed to read " ++ path.quoted
  | compilation origin _ => "failed to compile " ++ origin.text
  | createDirectory path _ => "failed to create directory " ++ path.quoted
  | writeOutput path _ => "failed to write output file " ++ path.quoted

/-- What went wrong, the nearest cause first. -/
def causes : RunError → List String
  | readInput _ cause => [cause.render]
  | walk _ path cause =>
      ["IO error for operation on " ++ path.text ++ ": " ++ cause.render, cause.render]
  | readSource _ cause => [cause.render]
  | compilation _ cause => [cause.render]
  | createDirectory _ cause => [cause.render]
  | writeOutput _ cause => [cause.render]

/-- A text after a label. Its further lines begin below its first one. -/
def labelled (label text : String) : String :=
  let margin := String.ofList (List.replicate label.length ' ')
  label ++ String.join (text.toList.map fun char =>
    if char = '\n' then "\n" ++ margin else String.singleton char)

/-- The lines that tell the causes of an error. A single cause has no number. -/
def renderCauses : List String → String
  | [cause] => labelled "    " cause ++ "\n"
  | causes =>
      String.join (causes.mapIdx fun index cause =>
        labelled ("    " ++ toString index ++ ": ") cause ++ "\n")

/-- The report of an error. -/
def render (error : RunError) : String :=
  "Error: " ++ error.context ++ "\n\nCaused by:\n" ++ renderCauses error.causes

end RunError

/-- A part of a run. The notices stay when it fails. -/
abbrev Action (m : Type → Type) := ExceptT RunError (StateT (List Notice) m)

section Actions

variable {m : Type → Type} [Monad m]

/-- Add a notice. -/
def note (notice : Notice) : Action m Unit :=
  modify (· ++ [notice])

/-- Use an operation of the host, and say what a refusal means. -/
def perform {α : Type} (operation : m (Except HostError α))
    (refused : HostError → RunError) : Action m α := do
  match ← (operation : m (Except HostError α)) with
  | .ok value => return value
  | .error error => throw (refused error)

/-- Compile a source that comes from `origin`. -/
def compileSource (origin : Path) (source : List UInt8) : Action m String := do
  note (.compiling origin source.length)
  match (compile source).run #[] with
  | .ok text events =>
      events.toList.forM (fun event => note (.compiler event))
      return text
  | .error failure events =>
      events.toList.forM (fun event => note (.compiler event))
      throw (.compilation origin failure)

/-- Write a file, and the directories that its path needs. -/
def writeOutput (host : Host m) (path : Path) (text : String) : Action m Unit := do
  let bytes := text.toUTF8.toList
  match path.parent? with
  | none => pure ()
  | some parent => perform (host.createDirectories parent) (.createDirectory parent)
  perform (host.writeFile path bytes) (.writeOutput path)
  note (.wrote path bytes.length)

/-- Deliver the text of a single source. The result is what goes to the standard
    output. -/
def deliver (host : Host m) (options : Options) (text : String) : Action m String := do
  if options.check then return ""
  match options.output with
  | none => return text
  | some path =>
      writeOutput host path text
      return ""

/-- Where the files for a directory go unless the command line says so. -/
def defaultOutput : Path := .ofText "Output"

/-- Compile one source below `root`, where `path` names it as seen from there. -/
def compileBelow (host : Host m) (options : Options) (root path : Path) : Action m Unit := do
  let origin := root.join path
  let source ← perform (host.readFile origin) (.readSource origin)
  let text ← compileSource origin source
  if !options.check then
    writeOutput host ((options.output.getD defaultOutput).join path).target text

/-- Compile what an entry of a directory below `root` stands for, where `within`
    compiles what a directory holds. The result is the number of sources. -/
def compileEntry (host : Host m) (options : Options) (root : Path)
    (within : List String → Action m Nat) (way : List String) (isDirectory : Bool) :
    Action m Nat := do
  if isDirectory then within way
  else if Path.isSource ⟨way⟩ then
    compileBelow host options root ⟨way⟩
    return 1
  else return 0

/-- Compile every source in the directory that `way` leads to from `root`, at any
    depth. The result is their number. A directory is listed when the walk comes to
    it, so it is found as the sources before it have left it. A way of more than
    `levels` further names would be part of a path too long for any host. -/
def compileWithin (host : Host m) (options : Options) (root : Path) :
    Nat → List String → Action m Nat
  | 0, way => throw (.walk root (root.join ⟨way⟩) .nameTooLong)
  | levels + 1, way => do
      let here := root.join ⟨way⟩
      let entries ← perform (host.list here) (.walk root here)
      entries.foldlM (fun compiled entry => do
        let inside ← compileEntry host options root (compileWithin host options root levels)
          (way ++ [entry.name]) entry.isDirectory
        return compiled + inside) 0

/-- Compile every source below a directory. -/
def compileDirectory (host : Host m) (options : Options) (root : Path) : Action m Unit := do
  let compiled ← compileWithin host options root (pathLimit + 2) []
  note (.compiledDirectory compiled root)

/-- What stands for the path of the standard input. -/
def standardOrigin : Path := .ofText "<stdin>"

/-- Do what the options ask for. The result is what goes to the standard
    output. -/
def execute (host : Host m) (options : Options) : Action m String := do
  match options.input with
  | none =>
      let source ← (host.standardInput : m (List UInt8))
      deliver host options (← compileSource standardOrigin source)
  | some path =>
      if ← (host.isDirectory path : m Bool) then
        compileDirectory host options path
        return ""
      else
        let source ← perform (host.readFile path) (.readInput path)
        deliver host options (← compileSource path source)

end Actions

/-- What a run leaves on its standard streams, and its exit status. -/
structure Outcome where
  exit : Nat
  standardOutput : String
  standardError : String
  deriving DecidableEq, Repr

/-- How the tool is called. -/
def usage : String :=
  "Usage: gotype-cli [OPTIONS]\n"

/-- What the tool says about itself. -/
def helpText : String :=
  "Translate GoType sources into Go\n\n" ++ usage ++ "\n" ++
    "Options:\n" ++
    "  -i, --input <PATH>   Source file or directory (reads stdin when omitted)\n" ++
    "  -o, --output <PATH>  Output file, or output directory for directory input\n" ++
    "      --check          Run the whole pipeline without writing any output\n" ++
    "  -v, --verbose...     Raise log verbosity (repeatable)\n" ++
    "  -h, --help           Print help\n" ++
    "  -V, --version        Print version\n"

/-- The name and version of the tool. -/
def versionText : String :=
  "gotype-cli 0.1.0\n"

/-- The notices that show at a verbosity, as text. -/
def renderLog (verbosity : Nat) (notices : List Notice) : String :=
  let shown := (notices.map Notice.entry).filter fun entry => entry.level.shownAt verbosity
  String.join (shown.map LogEntry.render)

/-- The outcome of a finished run. -/
def Outcome.ofResult (verbosity : Nat) (result : Except RunError String)
    (notices : List Notice) : Outcome :=
  match result with
  | .ok output => ⟨0, output, renderLog verbosity notices⟩
  | .error error => ⟨1, "", renderLog verbosity notices ++ error.render⟩

/-- Run the tool with the given arguments. -/
def run {m : Type → Type} [Monad m] (host : Host m) (arguments : List String) :
    m Outcome := do
  match Request.ofArguments arguments with
  | .help => return ⟨0, helpText, ""⟩
  | .version => return ⟨0, versionText, ""⟩
  | .refused => return ⟨2, "", usage⟩
  | .run options =>
      let (result, notices) ← (execute host options).run.run []
      return .ofResult options.verbosity result notices

end Offside.Tool
