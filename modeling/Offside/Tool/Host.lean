import Offside.Tool.Path

/-!
# The host

What the tool needs from its surroundings, as a record of operations in some
monad. The tool is written against this record, so it can run on the real file
system and on a tree of files held in memory alike.
-/

namespace Offside.Tool

/-- Why the host refused an operation: its number and its wording. -/
structure HostError where
  code : Nat
  reason : String
  deriving DecidableEq, Repr

namespace HostError

/-- Something on the way to a path, or its end, is missing. -/
def notFound : HostError := ⟨2, "No such file or directory"⟩

/-- Something of that name is there already. -/
def alreadyExists : HostError := ⟨17, "File exists"⟩

/-- A path leads through a file. -/
def notADirectory : HostError := ⟨20, "Not a directory"⟩

/-- A directory where a file is wanted. -/
def isADirectory : HostError := ⟨21, "Is a directory"⟩

/-- A name, or a whole path, has more bytes than the host can take. -/
def nameTooLong : HostError := ⟨36, "File name too long"⟩

/-- The error of a number, in the usual wording if it has one and in the given
    wording otherwise. -/
def ofCode (code : Nat) (reason : String) : HostError :=
  ([notFound, alreadyExists, notADirectory, isADirectory, nameTooLong].find?
    (fun error => error.code == code)).getD ⟨code, reason⟩

/-- The one-line form of an error. -/
def render (error : HostError) : String :=
  error.reason ++ " (os error " ++ toString error.code ++ ")"

end HostError

/-- The greatest size of a path. A host refuses every longer one. -/
def pathLimit : Nat := 4095

/-- What a directory holds under a name: a directory or a file. -/
structure Entry where
  name : String
  isDirectory : Bool
  deriving DecidableEq, Repr

/-- The operations of a host. -/
structure Host (m : Type → Type) where
  /-- All of the standard input. -/
  standardInput : m (List UInt8)
  isDirectory : Path → m Bool
  /-- The entries of a directory, in the order of their names. -/
  list : Path → m (Except HostError (List Entry))
  readFile : Path → m (Except HostError (List UInt8))
  /-- Create one directory. The way to it has to be there, and it must not. -/
  createDirectory : Path → m (Except HostError Unit)
  /-- Create a file, or replace its content. -/
  writeFile : Path → List UInt8 → m (Except HostError Unit)

/-- Create one directory, unless the path leads to one already. A missing way is
    still an error. -/
def Host.ensureDirectory {m : Type → Type} [Monad m] (host : Host m) (path : Path) :
    m (Except HostError Unit) := do
  match ← host.createDirectory path with
  | .ok _ => return .ok ()
  | .error error => return if ← host.isDirectory path then .ok () else .error error

/-- Create a directory and what is missing on the way to it. The directories on
    the way are created from the top, so those created before an error stay. -/
def Host.createDirectories {m : Type → Type} [Monad m] (host : Host m) (path : Path) :
    m (Except HostError Unit) := do
  match ← host.ensureDirectory path with
  | .ok _ => return .ok ()
  | .error error =>
      match _ : path.parent? with
      | none => return .error error
      | some parent =>
          if error.code ≠ HostError.notFound.code then return .error error
          match ← host.createDirectories parent with
          | .ok _ => host.ensureDirectory path
          | .error failed => return .error failed
termination_by path.segments.length
decreasing_by exact Path.length_parent_lt path parent (by assumption)

end Offside.Tool
