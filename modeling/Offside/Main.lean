import Offside.Tool.Run

/-!
# The command line program

The real file system as a host, and the program that runs the tool on it. All
decisions are made by `Offside.Tool.run`; this module only carries out what it
asks for.
-/

namespace Offside.Tool.Native

/-- An error of the operating system. Its number may come with its sign turned
    round. -/
def numbered (code : UInt32) (details : String) : HostError :=
  .ofCode code.toInt32.toInt.natAbs details

/-- A refusal of the operating system, with its number where it is known. -/
def hostError : IO.Error → HostError
  | .alreadyExists _ code details => numbered code details
  | .noFileOrDirectory _ code details => numbered code details
  | .inappropriateType _ code details => numbered code details
  | .permissionDenied _ code details => numbered code details
  | .invalidArgument _ code details => numbered code details
  | .noSuchThing _ code details => numbered code details
  | .otherError code details => numbered code details
  | error => ⟨0, toString error⟩

/-- Run an operation, and hand over a refusal as a value. -/
def attempt {α : Type} (operation : IO α) : IO (Except HostError α) := do
  try
    return .ok (← operation)
  catch error => return .error (hostError error)

/-- A path as the file system takes it. -/
def located (path : Path) :=
  (IO.FS.DirEntry.mk path.text "").root

/-- The names in a directory, in order. -/
def names (directory : Path) : IO (List String) := do
  let entries ← (located directory).readDir
  let unsorted := entries.toList.map IO.FS.DirEntry.fileName
  return unsorted.mergeSort fun first second => !decide (second < first)

/-- What kind of thing a path leads to. -/
def typeOf (path : Path) : IO IO.FS.FileType := do
  return (← (located path).symlinkMetadata).type

/-- The entry of a directory under a name. Links and special files are left out. An
    entry whose kind is not told is taken for a directory, which cannot be listed
    either. -/
def entryUnder (directory : Path) (name : String) : IO (Option Entry) := do
  match ← attempt (typeOf (directory.join ⟨[name]⟩)) with
  | .ok .file => return some ⟨name, false⟩
  | .ok .dir | .error _ => return some ⟨name, true⟩
  | .ok _ => return none

/-- The real file system and the standard input of the program. -/
def host : Host IO where
  standardInput := do return (← (← IO.getStdin).readBinToEnd).toList
  isDirectory path := (located path).isDir
  list path := attempt do (← names path).filterMapM (entryUnder path)
  readFile path := attempt do return (← IO.FS.readBinFile (located path)).toList
  createDirectory path := attempt (IO.FS.createDir (located path))
  writeFile path content :=
    attempt (IO.FS.writeBinFile (located path) ⟨content.toArray⟩)

end Offside.Tool.Native

/-- Run the tool on the arguments of the program. -/
def main (arguments : List String) : IO UInt32 := do
  let outcome ← Offside.Tool.run Offside.Tool.Native.host arguments
  IO.print outcome.standardOutput
  IO.eprint outcome.standardError
  return outcome.exit.toUInt32
