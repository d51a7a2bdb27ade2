import Offside.Text.Quoted

/-!
# Paths

A path is the list of segments between its slashes, none of which is left out:
a slash at the end gives an empty last segment. So a path has exactly one text,
and the text it was given with is the one it is shown with.

Segments that are empty or a single point lead nowhere. Only a point at the very
start counts as a part of its path.
-/

namespace Offside.Tool

/-- A path, segment by segment. -/
structure Path where
  segments : List String
  deriving DecidableEq, Repr

namespace Path

/-- Cut characters at every slash. -/
def splitSlashes : List Char → List (List Char)
  | [] => [[]]
  | char :: rest =>
      if char = '/' then [] :: splitSlashes rest
      else
        match splitSlashes rest with
        | [] => [[char]]
        | segment :: segments => (char :: segment) :: segments

/-- The path with this text. -/
def ofText (text : String) : Path :=
  ⟨(splitSlashes text.toList).map String.ofList⟩

/-- The text of a path. -/
def text (path : Path) : String :=
  String.intercalate "/" path.segments

/-- The number of bytes in the text of a path. -/
def size (path : Path) : Nat :=
  path.text.utf8ByteSize

/-- A path between quotes. -/
def quoted (path : Path) : String :=
  Text.quoted path.text

/-- `path` seen from `root`. A slash at the end of `root` is not doubled. -/
def join (root path : Path) : Path :=
  if path.segments = [] then root
  else if root.segments.getLast? = some "" then ⟨root.segments.dropLast ++ path.segments⟩
  else ⟨root.segments ++ path.segments⟩

/-- A segment that leads nowhere. -/
def isTrivial (segment : String) : Bool :=
  segment == "" || segment == "."

/-- Segments without the trivial ones at the end. The first segment stays. -/
def trimmed : List String → List String
  | [] => []
  | first :: rest => first :: (rest.reverse.dropWhile isTrivial).reverse

/-- Trimming only removes segments. -/
theorem length_trimmed_le (segments : List String) :
    (trimmed segments).length ≤ segments.length := by
  cases segments with
  | nil => exact Nat.le_refl _
  | cons first rest =>
      have shorter := (List.dropWhile_sublist isTrivial (l := rest.reverse)).length_le
      simpa [trimmed] using shorter

/-- The path of the directory that holds what this path names. There is none for
    a path of one part, which stands in the working directory. -/
def parent? (path : Path) : Option Path :=
  match trimmed (trimmed path.segments).dropLast with
  | [] => none
  | [""] => none
  | segments => some ⟨segments⟩

/-- The path of a directory has fewer segments than the path of what it
    holds. -/
theorem length_parent_lt (path parent : Path) (found : path.parent? = some parent) :
    parent.segments.length < path.segments.length := by
  have outer := length_trimmed_le (trimmed path.segments).dropLast
  have inner := length_trimmed_le path.segments
  rw [List.length_dropLast] at outer
  unfold parent? at found
  split at found
  · contradiction
  · contradiction
  · rename_i nonempty _
    cases found
    have positive := List.length_pos_iff.mpr nonempty
    simp only
    omega

/-- The name of a source file without its extension. A name that is nothing but
    the extension belongs to no source. -/
def sourceStem? (name : String) : Option String :=
  let stem := name.toList.take (name.toList.length - 3)
  if name.toList.drop (name.toList.length - 3) = ['.', 'p', 'y'] ∧ stem ≠ [] then
    some (String.ofList stem)
  else none

/-- Whether a path names a source file. -/
def isSource (path : Path) : Bool :=
  (path.segments.getLast?.bind sourceStem?).isSome

/-- The name of the file that a source is compiled to. The old extension is taken
    off up to its point before the new one is put on; if two points are all that
    is left they name the directory above, which has no extension to replace. -/
def targetName (stem : String) : String :=
  if stem = "." then ".." else stem ++ ".go"

/-- The path that a source is compiled to. -/
def target (path : Path) : Path :=
  match path.segments.getLast?.bind sourceStem? with
  | some stem => ⟨path.segments.dropLast ++ [targetName stem]⟩
  | none => path

end Path

end Offside.Tool
