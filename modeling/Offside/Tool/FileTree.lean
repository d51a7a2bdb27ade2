import Offside.Tool.Host

/-!
# File trees

A file tree is a finite map from locations to files and directories. It stands for the whole file
system, with the working directory at its top. A location is the list of names that leads to it
from there. The working directory itself is always there, and two points lead from it to itself,
as they do at the top of any file system. A rooted path starts at the top as well.

Names are Unicode strings and tell upper and lower case apart. There are no links, hard ones
neither: every file has one location, and what is written there is seen nowhere else.

A path is resolved segment by segment: a point or an empty segment stays, two
points go up, and a name goes down. Whatever comes after a file, be it only a
slash, makes the path lead through that file, which is an error.

Names and paths have a greatest size in bytes. A path is measured before it is
followed, and a name when it is looked up.
-/

namespace Offside.Tool

/-- What stands at a location. -/
inductive Node where
  | directory
  | file (content : List UInt8)
  deriving DecidableEq, Repr

/-- The names that lead to a place from the top. -/
abbrev Location := List String

/-- All files and directories below the top, which is the working directory. -/
structure FileTree where
  entries : List (Location × Node)
  deriving DecidableEq, Repr

namespace FileTree

/-- Nothing but the working directory. -/
def empty : FileTree := ⟨[]⟩

/-- What stands at a location, if anything. -/
def node? (tree : FileTree) (location : Location) : Option Node :=
  if location = [] then some .directory else tree.entries.lookup location

/-- Put something at a location, in place of what was there. -/
def put (tree : FileTree) (location : Location) (node : Node) : FileTree :=
  ⟨(location, node) :: tree.entries.filter (fun entry => entry.1 != location)⟩

/-- What was put at a location is found there. -/
theorem node?_put_self (tree : FileTree) (location : Location) (node : Node)
    (below : location ≠ []) : (tree.put location node).node? location = some node := by
  simp [node?, put, below]

/-- What stands at every other location stays as it was when something is put at one. -/
theorem node?_put_of_ne (tree : FileTree) (location other : Location) (node : Node)
    (different : other ≠ location) :
    (tree.put location node).node? other = tree.node? other := by
  have kept : ∀ entries : List (Location × Node),
      (entries.filter (fun entry => entry.1 != location)).lookup other =
        entries.lookup other := by
    intro entries
    induction entries with
    | nil => rfl
    | cons entry entries ih =>
        obtain ⟨place, _⟩ := entry
        by_cases same : place = location
        · subst same
          have unmatched : (other == place) = false := by simpa using different
          simp [List.lookup_cons, unmatched, ih]
        · simp [same, List.lookup_cons, ih]
  by_cases root : other = []
  · simp [node?, root]
  · have unmatched : (other == location) = false := by simpa using different
    simp [node?, put, root, List.lookup_cons, unmatched, kept]

/-- The greatest size of a name. -/
def nameLimit : Nat := 255

/-- Refuse a path that is too long to be followed. -/
def checkSize (path : Path) : Except HostError Unit :=
  if path.size ≤ pathLimit then .ok () else .error .nameTooLong

/-- What stands in a directory under a name, if anything. Where nothing stands the
    name has to be one that something could have. -/
def entry? (tree : FileTree) (directory : Location) (name : String) :
    Except HostError (Option Node) :=
  match tree.node? (directory ++ [name]) with
  | some node => .ok (some node)
  | none => if name.utf8ByteSize ≤ nameLimit then .ok none else .error .nameTooLong

/-- Follow segments from a location. -/
def follow (tree : FileTree) (here : Location) : List String → Except HostError Location
  | [] => .ok here
  | segment :: rest =>
      match tree.node? here with
      | some .directory =>
          if Path.isTrivial segment then follow tree here rest
          else if segment = ".." then follow tree here.dropLast rest
          else
            match tree.entry? here segment with
            | .ok (some _) => follow tree (here ++ [segment]) rest
            | .ok none => .error .notFound
            | .error error => .error error
      | _ => .error .notADirectory

/-- Where a path leads. -/
def resolve (tree : FileTree) (path : Path) : Except HostError Location := do
  checkSize path
  tree.follow [] path.segments

/-- Where segments lead that have to name a directory. The empty segment after
    them leads through it. -/
def resolveDirectory (tree : FileTree) (segments : List String) :
    Except HostError Location :=
  tree.follow [] (segments ++ [""])

/-- Whether a path leads to a directory. -/
def isDirectory (tree : FileTree) (path : Path) : Bool :=
  match tree.resolve path with
  | .ok location => tree.node? location == some .directory
  | .error _ => false

/-- The content of the file that a path leads to. -/
def readFile (tree : FileTree) (path : Path) : Except HostError (List UInt8) := do
  match tree.node? (← tree.resolve path) with
  | some (.file content) => return content
  | _ => throw .isADirectory

/-- A path taken apart into the way to its last part, that part, and whether a
    slash follows it. -/
def lastPart (path : Path) : List String × String × Bool :=
  let bare := (path.segments.reverse.dropWhile (· == "")).reverse
  (bare.dropLast, bare.getLastD ".", decide (bare.length < path.segments.length))

/-- A name that stands for a directory whatever the tree holds. -/
def isDirectoryName (name : String) : Bool :=
  name == "." || name == ".."

/-- Create one directory. The way to it has to be there. -/
def createDirectory (tree : FileTree) (path : Path) : Except HostError FileTree := do
  checkSize path
  let (way, name, _) := lastPart path
  let directory ← tree.resolveDirectory way
  if isDirectoryName name then throw .alreadyExists
  match ← tree.entry? directory name with
  | some _ => throw .alreadyExists
  | none => return tree.put (directory ++ [name]) .directory

/-- Create a file, or replace its content. -/
def writeFile (tree : FileTree) (path : Path) (content : List UInt8) :
    Except HostError FileTree := do
  checkSize path
  let (way, name, slashed) := lastPart path
  let directory ← tree.resolveDirectory way
  if slashed ∨ isDirectoryName name then throw .isADirectory
  match ← tree.entry? directory name with
  | some .directory => throw .isADirectory
  | _ => return tree.put (directory ++ [name]) (.file content)

/-- What a directory holds, in the order of the names. -/
def entriesIn (tree : FileTree) (directory : Location) : List Entry :=
  let inside := tree.entries.filterMap fun entry =>
    if entry.1.dropLast = directory then
      entry.1.getLast?.map fun name => ⟨name, entry.2 == .directory⟩
    else none
  inside.mergeSort fun first second => !decide (second.name < first.name)

/-- The entries of the directory that a path leads to. -/
def list (tree : FileTree) (path : Path) : Except HostError (List Entry) := do
  let location ← tree.resolve path
  if tree.node? location = some .directory then return tree.entriesIn location
  else throw .notADirectory

/-- The text of a location; a directory has a slash at its end. -/
def entryText (entry : Location × Node) : String :=
  match entry.2 with
  | .directory => String.intercalate "/" entry.1 ++ "/"
  | .file _ => String.intercalate "/" entry.1

/-- What the tree holds that `before` did not, by the text of its location. -/
def changedSince (tree before : FileTree) : List (String × Node) :=
  let changed := tree.entries.filter fun entry => before.node? entry.1 != some entry.2
  (changed.map fun entry => (entryText entry, entry.2)).mergeSort
    fun first second => !decide (second.1 < first.1)

/-- Change the tree, or leave it as it is when the change is refused. -/
def update (change : FileTree → Except HostError FileTree) :
    StateM FileTree (Except HostError Unit) := fun tree =>
  match change tree with
  | .ok changed => (.ok (), changed)
  | .error error => (.error error, tree)

/-- A tree as a host, with the given standard input. -/
def host (input : List UInt8) : Host (StateM FileTree) where
  standardInput := return input
  isDirectory path := return (← get).isDirectory path
  list path := return (← get).list path
  readFile path := return (← get).readFile path
  createDirectory path := update fun tree => tree.createDirectory path
  writeFile path content := update fun tree => tree.writeFile path content

end FileTree

end Offside.Tool
