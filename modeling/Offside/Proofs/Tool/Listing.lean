import Mathlib.Data.List.Lex
import Mathlib.Data.String.Basic
import Offside.Proofs.Tool.Trees

/-!
# Listed directories and their sources

Locations are ordered by their first names, then by their second names, and so on. What lies in
a directory comes right after the directory in this order, so a walk that lists every directory
when it comes to it, and takes the names in their order, meets everything in the order of the
locations.

A source is a file whose name ends in the extension of sources and has something in front of
it. Different sources are compiled to different files, and none of these is a source itself.
-/

namespace Offside.Tool

/-! ## Names of sources and of what they are compiled to -/

/-- A name has a stem exactly if it ends in the extension of sources and the stem in front of it is
    not empty. -/
theorem Path.sourceStem?_eq_some_iff {name stem : String} :
    Path.sourceStem? name = some stem ↔ name = stem ++ ".py" ∧ stem ≠ "" := by
  unfold Path.sourceStem?
  constructor
  · intro found
    simp only at found
    split at found
    next isSource =>
      obtain ⟨extension, nonempty⟩ := isSource
      obtain rfl := Option.some.inj found
      constructor
      · rw [← String.toList_inj, String.toList_append, String.toList_ofList]
        conv_lhs => rw [← List.take_append_drop (name.toList.length - 3) name.toList, extension]
        rfl
      · intro empty
        exact nonempty (by simpa using congrArg String.toList empty)
    next => contradiction
  · rintro ⟨rfl, nonempty⟩
    have isCut : (stem ++ ".py").toList = stem.toList ++ ['.', 'p', 'y'] := by
      rw [String.toList_append]
      rfl
    have nonemptyList : stem.toList ≠ [] := fun empty =>
      nonempty (String.toList_inj.mp empty)
    simp [isCut, nonemptyList]

/-- A path names a source exactly if its last name is a stem with the extension behind it. -/
theorem Path.isSource_iff {way : List String} :
    Path.isSource ⟨way⟩ = true ↔
      ∃ front stem, way = front ++ [stem ++ ".py"] ∧ stem ≠ "" := by
  unfold Path.isSource
  simp only [Option.isSome_iff_exists, Option.bind_eq_some_iff, Path.sourceStem?_eq_some_iff,
    List.getLast?_eq_some_iff]
  constructor
  · rintro ⟨stem, name, ⟨front, isWay⟩, rfl, nonempty⟩
    exact ⟨front, stem, isWay, nonempty⟩
  · rintro ⟨front, stem, isWay, nonempty⟩
    exact ⟨stem, _, ⟨front, isWay⟩, rfl, nonempty⟩

/-- Only the last name tells whether a path names a source, so the directory in front has no say. -/
theorem Path.isSource_append (base : List String) {way : List String} (below : way ≠ []) :
    Path.isSource ⟨base ++ way⟩ = Path.isSource ⟨way⟩ := by
  unfold Path.isSource
  rw [List.getLast?_append_of_ne_nil _ below]

/-- The extension of a source is replaced in the last name, and all other names stay. -/
theorem Path.target_concat (front : List String) {stem : String} (nonempty : stem ≠ "") :
    Path.target ⟨front ++ [stem ++ ".py"]⟩ = ⟨front ++ [Path.targetName stem]⟩ := by
  have found := Path.sourceStem?_eq_some_iff.mpr ⟨rfl, nonempty⟩
  simp [Path.target, found]

/-- A name with the extension of targets ends in its last letter. -/
theorem append_go_ne (stem : String) {name : String} (ends : name.toList.getLast? ≠ some 'o') :
    stem ++ ".go" ≠ name := by
  rintro rfl
  simp [String.toList_append] at ends

/-- A name with the extension of Go is a proper one, for it is neither empty nor one or two
    points. -/
theorem properName_go (stem : String) : ProperName (stem ++ ".go") := by
  have nonempty : stem ++ ".go" ≠ "" := append_go_ne stem (by decide)
  have notPoint : stem ++ ".go" ≠ "." := append_go_ne stem (by decide)
  have notUp : stem ++ ".go" ≠ ".." := append_go_ne stem (by decide)
  constructor
  · rw [Path.isTrivial, Bool.or_eq_false_iff, beq_eq_false_iff_ne, beq_eq_false_iff_ne]
    exact ⟨nonempty, notPoint⟩
  · exact notUp

/-- Different stems give different names, the one for a single point included, so no two sources
    share a target. -/
theorem Path.targetName_injective : Function.Injective Path.targetName := by
  have ends : ∀ stem : String, stem ++ ".go" ≠ ".." := fun stem => (properName_go stem).2
  intro stem other same
  unfold Path.targetName at same
  split at same
  next isPoint =>
    split at same
    next alsoPoint => rw [isPoint, alsoPoint]
    next => exact absurd same.symm (ends other)
  next =>
    split at same
    next => exact absurd same (ends stem)
    next => exact (String.append_left_inj ".go").mp same

/-- What a source is compiled to is no source, so a run does not feed on its own output. -/
theorem Path.isSource_target (front : List String) (stem : String) :
    Path.isSource ⟨front ++ [Path.targetName stem]⟩ = false := by
  rw [Bool.eq_false_iff]
  intro isSource
  obtain ⟨other, base, same, -⟩ := Path.isSource_iff.mp isSource
  have names : Path.targetName stem = base ++ ".py" :=
    List.singleton_inj.mp (List.append_inj_right' same rfl)
  have last := congrArg (fun text : String => text.toList.getLast?) names
  unfold Path.targetName at last
  split at last <;> simp [String.toList_append] at last

/-! ## The order of locations -/

/-- Below one directory, locations are in the order of the ways from there. The induction is on the
    way to the directory. -/
theorem Location.append_lt_append_iff (way : Location) {rest other : Location} :
    way ++ rest < way ++ other ↔ rest < other := by
  induction way with
  | nil => rfl
  | cons name way ih => simp [ih]

/-- A location comes before whatever lies below it, as a word does before its continuations. -/
theorem Location.lt_append (way : Location) (name : String) (rest : Location) :
    way < way ++ name :: rest := by
  have below := (Location.append_lt_append_iff way).mpr (List.nil_lt_cons name rest)
  simpa using below

/-- Of two locations one comes before the other, where a location comes before whatever lies
    below it. Then it comes before all that lies below the other, or lies there itself. -/
theorem Location.order_cases (way other : Location) :
    other < way ∨ (∃ rest, other = way ++ rest) ∨ ∀ rest, way ++ rest < other := by
  induction way generalizing other with
  | nil => exact .inr (.inl ⟨other, rfl⟩)
  | cons name way ih =>
      cases other with
      | nil => exact .inl (by simp)
      | cons first other =>
          simp only [List.cons_append, List.cons_lt_cons_iff, List.cons.injEq]
          obtain less | rfl | more := lt_trichotomy first name
          · exact .inl (.inl less)
          · obtain less | ⟨rest, rfl⟩ | more := ih other
            · exact .inl (.inr ⟨rfl, less⟩)
            · exact .inr (.inl ⟨rest, rfl, rfl⟩)
            · exact .inr (.inr fun rest => .inr ⟨rfl, more rest⟩)
          · exact .inr (.inr fun rest => .inl more)

/-- Sorting by keys that are all different sorts strictly, because items in order whose keys differ
    are in strict order. -/
theorem pairwise_mergeSort_lt {α κ : Type} [LinearOrder κ] (key : α → κ) {le : α → α → Bool}
    (compares : ∀ first second, le first second = true ↔ ¬ key second < key first)
    {items : List α} (distinct : items.Pairwise fun first second => key first ≠ key second) :
    (items.mergeSort le).Pairwise fun first second => key first < key second := by
  have sorted : (items.mergeSort le).Pairwise fun first second => le first second = true := by
    refine List.pairwise_mergeSort (fun first second third early late => ?_) ?_ items
    · simp only [compares, not_lt] at *
      exact early.trans late
    · intro first second
      simpa [compares] using le_total (key first) (key second)
  have separate := (List.mergeSort_perm items le).symm.pairwise distinct
    fun different same => different same.symm
  refine (sorted.and separate).imp fun {first second} facts => ?_
  obtain ⟨ordered, different⟩ := facts
  exact lt_of_le_of_ne (not_lt.mp ((compares _ _).mp ordered)) different

namespace FileTree

/-! ## Entries of a directory -/

/-- A directory is listed with the names of all that stands right in it, and each is known to be a
    directory or a file. -/
theorem Valid.mem_entriesIn {tree : FileTree} (valid : tree.Valid) {directory : Location}
    {entry : Entry} :
    entry ∈ tree.entriesIn directory ↔
      ∃ node, tree.node? (directory ++ [entry.name]) = some node ∧
        entry.isDirectory = (node == .directory) := by
  unfold entriesIn
  rw [List.mem_mergeSort, List.mem_filterMap]
  constructor
  · rintro ⟨⟨location, node⟩, isEntry, made⟩
    split at made
    next isInside =>
      obtain ⟨name, isLast, rfl⟩ := Option.map_eq_some_iff.mp made
      obtain ⟨front, rfl⟩ := List.getLast?_eq_some_iff.mp isLast
      rw [List.dropLast_concat] at isInside
      subst isInside
      exact ⟨node, (valid.mem_entries_iff.mp isEntry).2, rfl⟩
    next => contradiction
  · rintro ⟨node, found, isKind⟩
    refine ⟨(directory ++ [entry.name], node), valid.mem_entries_iff.mpr ⟨by simp, found⟩, ?_⟩
    simp [← isKind]

/-- The entries come in the order of their names, and no name comes twice. -/
theorem Valid.entriesIn_sorted {tree : FileTree} (valid : tree.Valid) (directory : Location) :
    (tree.entriesIn directory).Pairwise fun first second => first.name < second.name := by
  refine pairwise_mergeSort_lt Entry.name (by simp) (List.pairwise_filterMap.mpr ?_)
  refine (List.pairwise_map.mp valid.distinct).imp fun {first second} different => ?_
  intro entry isEntry other isOther same
  simp only [Option.ite_none_right_eq_some, Option.map_eq_some_iff] at isEntry isOther
  obtain ⟨isInside, name, isLast, rfl⟩ := isEntry
  obtain ⟨otherInside, _, otherLast, rfl⟩ := isOther
  obtain ⟨front, isFirst⟩ := List.getLast?_eq_some_iff.mp isLast
  obtain ⟨otherFront, isSecond⟩ := List.getLast?_eq_some_iff.mp otherLast
  rw [isFirst, List.dropLast_concat] at isInside
  rw [isSecond, List.dropLast_concat] at otherInside
  rw [isFirst, isSecond, isInside, otherInside] at different
  exact different (congrArg (fun name => directory ++ [name]) same)

/-! ## Paths below a directory -/

/-- A path that leads below a directory is followed if it is not too long. -/
theorem Valid.resolve_join {tree : FileTree} (valid : tree.Valid) {root : Path} {base : Location}
    (resolved : tree.resolve root = .ok base) {way : List String} {node : Node}
    (found : tree.node? (base ++ way) = some node) :
    tree.resolve (root.join ⟨way⟩) =
      if (root.join ⟨way⟩).size ≤ pathLimit then .ok (base ++ way) else .error .nameTooLong := by
  have followed : tree.follow [] (root.join ⟨way⟩).segments = .ok (base ++ way) := by
    have isBase := (resolve_ok_iff.mp resolved).2
    by_cases below : way = []
    · simpa [below, Path.join] using isBase
    · rw [follow_join isBase below]
      exact valid.follow_names found
  unfold resolve checkSize
  split
  · exact followed
  · rfl

/-- A directory below the root is listed unless its path is too long for the host. -/
theorem Valid.list_join {tree : FileTree} (valid : tree.Valid) {root : Path} {base : Location}
    (resolved : tree.resolve root = .ok base) {way : List String}
    (isDirectory : tree.node? (base ++ way) = some .directory) :
    tree.list (root.join ⟨way⟩) =
      if (root.join ⟨way⟩).size ≤ pathLimit then .ok (tree.entriesIn (base ++ way))
      else .error .nameTooLong := by
  unfold list
  rw [valid.resolve_join resolved isDirectory]
  split
  · simp [bind, Except.bind, isDirectory]
    rfl
  · rfl

/-- A file below the root is read unless its path is too long for the host. -/
theorem Valid.readFile_join {tree : FileTree} (valid : tree.Valid) {root : Path}
    {base : Location} (resolved : tree.resolve root = .ok base) {way : List String}
    {content : List UInt8} (isFile : tree.node? (base ++ way) = some (.file content)) :
    tree.readFile (root.join ⟨way⟩) =
      if (root.join ⟨way⟩).size ≤ pathLimit then .ok content else .error .nameTooLong := by
  unfold readFile
  rw [valid.resolve_join resolved isFile]
  split
  · simp [bind, Except.bind, isFile]
    rfl
  · rfl

/-! ## Sources -/

/-- The sources below a location, as seen from it and in the order of their locations. -/
def sourcesBelow (tree : FileTree) (base : Location) : List Location :=
  let ways := tree.entries.filterMap fun entry =>
    let way := entry.1.drop base.length
    if base <+: entry.1 ∧ entry.2 ≠ .directory ∧ Path.isSource ⟨way⟩ then some way else none
  ways.mergeSort fun first second => !decide (second < first)

/-- A source stands at the end of a way from a location. -/
def IsSource (tree : FileTree) (base : Location) (way : Location) : Prop :=
  Path.isSource ⟨way⟩ = true ∧ ∃ content, tree.node? (base ++ way) = some (.file content)

/-- The sources below a location are all files there whose name is that of a source. -/
theorem Valid.mem_sourcesBelow {tree : FileTree} (valid : tree.Valid) {base way : Location} :
    way ∈ tree.sourcesBelow base ↔ tree.IsSource base way := by
  unfold sourcesBelow
  rw [List.mem_mergeSort, List.mem_filterMap]
  constructor
  · rintro ⟨⟨location, node⟩, isEntry, made⟩
    simp only [Option.ite_none_right_eq_some] at made
    obtain ⟨⟨⟨rest, rfl⟩, isFile, isSource⟩, same⟩ := made
    rw [List.drop_left] at isSource same
    obtain rfl := Option.some.inj same
    cases node with
    | directory => contradiction
    | file content => exact ⟨isSource, content, (valid.mem_entries_iff.mp isEntry).2⟩
  · rintro ⟨isSource, content, isFile⟩
    have nonempty : base ++ way ≠ [] := by
      intro empty
      rw [empty, node?_root] at isFile
      cases isFile
    refine ⟨(base ++ way, .file content), valid.mem_entries_iff.mpr ⟨nonempty, isFile⟩, ?_⟩
    simp [isSource]

/-- The sources below a location are in the order of their locations, each one once, as sorting
    leaves them. -/
theorem Valid.sourcesBelow_sorted {tree : FileTree} (valid : tree.Valid) (base : Location) :
    (tree.sourcesBelow base).Pairwise (· < ·) := by
  refine pairwise_mergeSort_lt (fun way => way) (by simp) (List.pairwise_filterMap.mpr ?_)
  refine (List.pairwise_map.mp valid.distinct).imp fun {first second} different => ?_
  intro way isWay other isOther same
  simp only [Option.ite_none_right_eq_some, Option.some.injEq] at isWay isOther
  obtain ⟨⟨⟨rest, isFirst⟩, -, -⟩, rfl⟩ := isWay
  obtain ⟨⟨⟨otherRest, isSecond⟩, -, -⟩, rfl⟩ := isOther
  refine different ?_
  rw [← isFirst, ← isSecond] at same ⊢
  simpa using same

end FileTree

end Offside.Tool
