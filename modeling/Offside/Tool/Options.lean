import Offside.Tool.Path

/-!
# Command lines

Arguments are read from left to right. An option that takes a value has it
attached or as the next argument; attached values of short options may follow an
equals sign. Short options without a value can be run together, and the last of
them may take one. Reading ends at the first argument that asks for help or for
the version, and at the first that is wrong.
-/

namespace Offside.Tool

/-- What a run is asked to do. -/
structure Options where
  /-- A source file, or a directory of them; the standard input if missing. -/
  input : Option Path
  /-- Where to write; the standard output, or the default directory, if
      missing. -/
  output : Option Path
  /-- Compile, but write nothing. -/
  check : Bool
  /-- How often more detail was asked for. -/
  verbosity : Nat
  deriving DecidableEq, Repr

/-- What a command line asks for. -/
inductive Request where
  | run (options : Options)
  | help
  | version
  /-- The command line is wrong. -/
  | refused
  deriving DecidableEq, Repr

/-- The options that take a value. -/
inductive ValueOption where
  | input
  | output
  deriving DecidableEq, Repr

/-- The options that take none. -/
inductive Flag where
  | check
  | verbose
  | help
  | version
  deriving DecidableEq, Repr

/-- An option. -/
abbrev OptionName := ValueOption ⊕ Flag

namespace Options

/-- Nothing is asked for. -/
def empty : Options := ⟨none, none, false, 0⟩

/-- The options with a name of several letters. They cannot be shortened. -/
def longNames : List (String × OptionName) :=
  [("input", .inl .input), ("output", .inl .output), ("check", .inr .check),
    ("verbose", .inr .verbose), ("help", .inr .help), ("version", .inr .version)]

/-- The options with a name of one letter. -/
def shortNames : List (Char × OptionName) :=
  [('i', .inl .input), ('o', .inl .output), ('v', .inr .verbose), ('h', .inr .help),
    ('V', .inr .version)]

/-- Give a value to an option. A value is not empty, and no option has two. -/
def setValue (options : Options) (option : ValueOption) (value : String) :
    Except Request Options :=
  if value = "" then .error .refused
  else
    match option, options.input, options.output with
    | .input, none, _ => .ok { options with input := some (.ofText value) }
    | .output, _, none => .ok { options with output := some (.ofText value) }
    | _, _, _ => .error .refused

/-- Set a flag. Only verbosity can be raised more than once. -/
def setFlag (options : Options) : Flag → Except Request Options
  | .check =>
      if options.check then .error .refused else .ok { options with check := true }
  | .verbose => .ok { options with verbosity := options.verbosity + 1 }
  | .help => .error .help
  | .version => .error .version

/-- Whether an argument can be the value of the option before it: a lone hyphen
    can, an option cannot. -/
def isValue (argument : String) : Bool :=
  argument == "-" || argument.toList.head? != some '-'

/-- The name of a long option, whose hyphens are already taken off, and its
    attached value. -/
def longOption (argument : List Char) : String × Option String :=
  let name := argument.takeWhile (· != '=')
  match argument.drop name.length with
  | [] => (String.ofList name, none)
  | _ :: value => (String.ofList name, some (String.ofList value))

/-- The value attached to a short option: an equals sign in front of it is not a
    part of it. -/
def attached : List Char → String
  | '=' :: value => String.ofList value
  | value => String.ofList value

/-- Short options run together. The result names the last of them if it still
    waits for its value. -/
def shortOptions (options : Options) :
    List Char → Except Request (Options × Option ValueOption)
  | [] => .ok (options, none)
  | letter :: rest =>
      match shortNames.lookup letter with
      | none => .error .refused
      | some (.inr flag) => do shortOptions (← options.setFlag flag) rest
      | some (.inl option) =>
          if rest = [] then .ok (options, some option)
          else do return (← options.setValue option (attached rest), none)

/-- One argument that is not the value of the option before it. -/
def argument (options : Options) (text : String) :
    Except Request (Options × Option ValueOption) :=
  match text.toList with
  | '-' :: '-' :: long =>
      let (name, value) := longOption long
      match longNames.lookup name, value with
      | some (.inl option), none => .ok (options, some option)
      | some (.inl option), some value => do return (← options.setValue option value, none)
      | some (.inr flag), none => do return (← options.setFlag flag, none)
      | _, _ => .error .refused
  | '-' :: first :: rest => options.shortOptions (first :: rest)
  | _ => .error .refused

/-- Read the arguments that are left, while an option may still wait for its
    value. Two hyphens end the options, and nothing else may follow them. -/
def arguments (options : Options) :
    Option ValueOption → List String → Except Request Options
  | none, [] => .ok options
  | some _, [] => .error .refused
  | some option, text :: rest =>
      if isValue text then do arguments (← options.setValue option text) none rest
      else .error .refused
  | none, text :: rest =>
      if text = "--" then if rest = [] then .ok options else .error .refused
      else do
        let (next, waiting) ← options.argument text
        arguments next waiting rest

end Options

/-- What the arguments ask for. -/
def Request.ofArguments (arguments : List String) : Request :=
  match Options.empty.arguments none arguments with
  | .ok options => .run options
  | .error request => request

end Offside.Tool
