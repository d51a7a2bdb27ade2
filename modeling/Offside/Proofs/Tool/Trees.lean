import Mathlib.Data.List.Induction
import Offside.Tool.FileTree

/-!
# Well-formed file trees

A tree is well formed if every location stands in it at most once, has only names that
something can have, and lies in a directory. Nothing in such a tree is a link, so a path that
can be followed leads where its segments say: every name goes down and two points go up,
whatever the tree holds.

A change to a tree is described by the files it writes. Apart from these it only adds
directories, so whatever could be followed before can be followed afterwards.
-/

namespace Offside.Tool

/-- A sequence succeeds exactly if the first part gives a value with which the second one
    succeeds. -/
theorem ok_bind_iff {α β ε : Type} {first : Except ε α} {next : α → Except ε β} {value : β} :
    (first >>= next) = .ok value ↔ ∃ middle, first = .ok middle ∧ next middle = .ok value := by
  cases first with
  | error error =>
      constructor
      · exact nofun
      · rintro ⟨_, isOk, _⟩
        contradiction
  | ok middle =>
      constructor
      · exact fun isOk => ⟨middle, rfl, isOk⟩
      · rintro ⟨_, same, isOk⟩
        cases same
        exact isOk

/-- A name that something in a directory can have: it does not stay and does not go up. -/
def ProperName (name : String) : Prop :=
  Path.isTrivial name = false ∧ name ≠ ".."

instance (name : String) : Decidable (ProperName name) :=
  inferInstanceAs (Decidable (_ ∧ _))

/-! ## Where segments lead -/

/-- Where segments lead from a location if everything on the way is there. -/
def Location.descend (here : Location) : List String → Location
  | [] => here
  | segment :: rest =>
      if Path.isTrivial segment then descend here rest
      else if segment = ".." then descend here.dropLast rest
      else descend (here ++ [segment]) rest

/-- Where a path leads if everything on the way is there. -/
def Path.location (path : Path) : Location :=
  Location.descend [] path.segments

/-- Segments in two parts lead on from where the first part leads, by induction on it. -/
theorem Location.descend_append (here : Location) (first second : List String) :
    Location.descend here (first ++ second) =
      Location.descend (Location.descend here first) second := by
  induction first generalizing here with
  | nil => rfl
  | cons segment first ih =>
      simp only [List.cons_append, Location.descend]
      split
      · exact ih here
      · split
        · exact ih here.dropLast
        · exact ih (here ++ [segment])

/-- Proper names lead down, one after the other. The induction is on the names, none of which stays
    or goes up. -/
theorem Location.descend_proper (here : Location) {names : List String}
    (proper : ∀ name ∈ names, ProperName name) :
    Location.descend here names = here ++ names := by
  induction names generalizing here with
  | nil => simp [Location.descend]
  | cons name names ih =>
      have ⟨first, others⟩ := List.forall_mem_cons.mp proper
      simp [Location.descend, first.1, first.2, ih _ others]

/-- The segments of a path that others are joined to: without a slash at the end. -/
def Path.unslashed (root : Path) : List String :=
  if root.segments.getLast? = some "" then root.segments.dropLast else root.segments

/-- Joining to a path puts the new segments behind its own, where a slash at its end makes no
    difference. -/
theorem Path.segments_join (root : Path) {way : List String} (below : way ≠ []) :
    (root.join ⟨way⟩).segments = root.unslashed ++ way := by
  unfold Path.join Path.unslashed
  rw [if_neg below]
  split <;> rfl

/-- Only a slash at the end can be left out of a path that is joined to. -/
theorem Path.segments_eq_unslashed (root : Path) :
    root.segments = root.unslashed ∨ root.segments = root.unslashed ++ [""] := by
  unfold Path.unslashed
  split
  next slashed =>
    obtain ⟨front, isFront⟩ := List.getLast?_eq_some_iff.mp slashed
    right
    rw [isFront, List.dropLast_concat]
  next => exact .inl rfl

/-- A slash at the end of a path makes no difference to where it leads. -/
theorem Path.descend_unslashed (root : Path) :
    Location.descend [] root.unslashed = root.location := by
  unfold Path.location
  obtain same | slashed := root.segments_eq_unslashed
  · rw [same]
  · rw [slashed, Location.descend_append]
    rfl

/-- Proper names below a path lead below its location, by just these names. -/
theorem Path.location_join (root : Path) {way : List String}
    (proper : ∀ name ∈ way, ProperName name) :
    (root.join ⟨way⟩).location = root.location ++ way := by
  by_cases below : way = []
  · simp [below, Path.join]
  · rw [Path.location, root.segments_join below, Location.descend_append, root.descend_unslashed,
      Location.descend_proper _ proper]

namespace FileTree

/-- Segments in two parts are followed part by part, and it fails where either does. The induction
    is on the first part. -/
theorem follow_append (tree : FileTree) (here : Location) (first second : List String) :
    tree.follow here (first ++ second) =
      (tree.follow here first).bind fun there => tree.follow there second := by
  induction first generalizing here with
  | nil => rfl
  | cons segment first ih =>
      simp only [List.cons_append, follow]
      split
      · split
        · exact ih here
        · split
          · exact ih here.dropLast
          · split
            · exact ih (here ++ [segment])
            · rfl
            · rfl
      · rfl

/-- A name is found in a directory exactly if something stands at the location with this name below
    it. -/
theorem entry?_some_iff {tree : FileTree} {directory : Location} {name : String} {node : Node} :
    tree.entry? directory name = .ok (some node) ↔
      tree.node? (directory ++ [name]) = some node := by
  unfold entry?
  split
  next found => simp [found]
  next missing =>
    simp only [missing, reduceCtorEq, iff_false]
    split <;> simp

/-- If a name is looked up and not found, nothing stands at its location. -/
theorem entry?_none {tree : FileTree} {directory : Location} {name : String}
    (absent : tree.entry? directory name = .ok none) : tree.node? (directory ++ [name]) = none := by
  cases found : tree.node? (directory ++ [name]) with
  | none => rfl
  | some node =>
      rw [entry?_some_iff.mpr found] at absent
      cases absent

/-- Segments that can be followed lead where they say, for nothing in a tree is a link. The
    induction is on the segments. -/
theorem follow_eq_descend {tree : FileTree} {here there : Location} {segments : List String}
    (followed : tree.follow here segments = .ok there) :
    there = Location.descend here segments := by
  induction segments generalizing here with
  | nil =>
      cases followed
      rfl
  | cons segment segments ih =>
      simp only [follow] at followed
      simp only [Location.descend]
      split at followed
      · split at followed
        next isTrivial =>
          rw [if_pos isTrivial]
          exact ih followed
        next isTrivial =>
          rw [if_neg isTrivial]
          split at followed
          next isUp =>
            rw [if_pos isUp]
            exact ih followed
          next isUp =>
            rw [if_neg isUp]
            split at followed
            · exact ih followed
            · contradiction
            · contradiction
      · contradiction

/-- The size of a path is admitted exactly if it does not exceed the limit. -/
theorem checkSize_ok_iff {path : Path} {done : Unit} :
    checkSize path = .ok done ↔ path.size ≤ pathLimit := by
  unfold checkSize
  split
  next short => simp [short]
  next long => simp [long]

/-- A path can be resolved exactly if it is short enough and its segments can be followed. -/
theorem resolve_ok_iff {tree : FileTree} {path : Path} {location : Location} :
    tree.resolve path = .ok location ↔
      path.size ≤ pathLimit ∧ tree.follow [] path.segments = .ok location := by
  simp only [resolve, ok_bind_iff, checkSize_ok_iff, exists_const]

/-- A file can be read exactly if its path can be resolved and a file with this content stands
    there. -/
theorem readFile_ok_iff {tree : FileTree} {path : Path} {content : List UInt8} :
    tree.readFile path = .ok content ↔
      ∃ location, tree.resolve path = .ok location ∧
        tree.node? location = some (.file content) := by
  simp only [readFile, ok_bind_iff]
  refine exists_congr fun location => and_congr_right fun _ => ?_
  split
  next found =>
    rw [found]
    exact ⟨fun same => by cases same; rfl, fun same => by cases same; rfl⟩
  next notFile =>
    constructor
    · exact nofun
    · exact fun found => absurd found (notFile content)

/-- A path that can be resolved is resolved to its location, whatever the tree holds. -/
theorem resolve_location {tree : FileTree} {path : Path} {location : Location}
    (resolved : tree.resolve path = .ok location) : location = path.location :=
  follow_eq_descend (resolve_ok_iff.mp resolved).2

/-- Segments that have to name a directory lead to one, if they can be resolved at all. -/
theorem resolveDirectory_ok {tree : FileTree} {segments : List String} {directory : Location}
    (resolved : tree.resolveDirectory segments = .ok directory) :
    tree.follow [] segments = .ok directory ∧ tree.node? directory = some .directory := by
  unfold resolveDirectory at resolved
  rw [follow_append] at resolved
  cases followed : tree.follow [] segments with
  | error error =>
      rw [followed] at resolved
      contradiction
  | ok there =>
      rw [followed] at resolved
      simp only [Except.bind, follow] at resolved
      split at resolved
      next isDirectory =>
        cases resolved
        exact ⟨rfl, isDirectory⟩
      next => contradiction

/-! ## Well-formed trees -/

/-- A tree in which every location stands once, has proper names and lies in a directory. -/
structure Valid (tree : FileTree) : Prop where
  distinct : (tree.entries.map Prod.fst).Nodup
  below : ∀ entry ∈ tree.entries, entry.1 ≠ []
  proper : ∀ entry ∈ tree.entries, ∀ name ∈ entry.1, ProperName name
  inside : ∀ entry ∈ tree.entries, tree.node? entry.1.dropLast = some .directory

/-- The root of every tree is a directory. -/
theorem node?_root (tree : FileTree) : tree.node? [] = some .directory := by
  simp [node?]

/-- What a tree says about a location is what its entries say. -/
theorem Valid.mem_entries_iff {tree : FileTree} (valid : tree.Valid) {location : Location}
    {node : Node} :
    (location, node) ∈ tree.entries ↔ location ≠ [] ∧ tree.node? location = some node := by
  constructor
  · intro isEntry
    have nonempty := valid.below _ isEntry
    refine ⟨nonempty, ?_⟩
    obtain ⟨front, back, split⟩ := List.append_of_mem isEntry
    have distinct := valid.distinct
    rw [split, List.map_append, List.map_cons, List.nodup_append] at distinct
    simp only [node?, nonempty, if_false]
    refine List.lookup_eq_some_iff.mpr ⟨front, back, split, fun earlier isEarlier => ?_⟩
    have different := distinct.2.2 earlier.1 (List.mem_map_of_mem isEarlier) location
      (List.mem_cons_self ..)
    exact bne_iff_ne.mpr (Ne.symm different)
  · rintro ⟨nonempty, found⟩
    simp only [node?, nonempty, if_false] at found
    obtain ⟨front, back, split, -⟩ := List.lookup_eq_some_iff.mp found
    rw [split]
    simp

/-- Every name on the way to something is proper, since a tree that is well formed has no others. -/
theorem Valid.proper_of_node {tree : FileTree} (valid : tree.Valid) {location : Location}
    {node : Node} (found : tree.node? location = some node) :
    ∀ name ∈ location, ProperName name := by
  by_cases root : location = []
  · simp [root]
  · exact valid.proper _ (valid.mem_entries_iff.mpr ⟨root, found⟩)

/-- Whatever leads further is a directory. The induction is on the way further, from its end. -/
theorem Valid.directory_of_node {tree : FileTree} (valid : tree.Valid) {here : Location}
    {more : List String} (further : more ≠ []) {node : Node}
    (found : tree.node? (here ++ more) = some node) : tree.node? here = some .directory := by
  -- From the end of the way upwards: what holds the last name is a directory.
  induction more using List.reverseRecOn generalizing node with
  | nil => contradiction
  | append_singleton front name ih =>
      have isEntry := valid.mem_entries_iff.mpr ⟨by simp, found⟩
      have above := valid.inside _ isEntry
      rw [← List.append_assoc, List.dropLast_concat] at above
      by_cases last : front = []
      · simpa [last] using above
      · exact ih last above

/-- Names that lead to something can be followed, for everything on the way is a directory. The
    induction is on the names. -/
theorem Valid.follow_names {tree : FileTree} (valid : tree.Valid) {here : Location}
    {names : List String} {node : Node} (found : tree.node? (here ++ names) = some node) :
    tree.follow here names = .ok (here ++ names) := by
  induction names generalizing here with
  | nil => simp [follow]
  | cons name names ih =>
      have isDirectory := valid.directory_of_node (List.cons_ne_nil _ _) found
      have proper : ProperName name := valid.proper_of_node found name (by simp)
      have entered : ∃ next, tree.node? (here ++ [name]) = some next := by
        by_cases last : names = []
        · exact ⟨node, by simpa [last] using found⟩
        · exact ⟨.directory, valid.directory_of_node last (by simpa using found)⟩
      obtain ⟨next, isNext⟩ := entered
      have onwards := @ih (here ++ [name]) (by simpa using found)
      simpa [follow, isDirectory, proper.1, proper.2, entry?, isNext] using onwards

/-- From a directory that a path leads to, names below it lead on. -/
theorem follow_join {tree : FileTree} {root : Path} {base : Location}
    (followed : tree.follow [] root.segments = .ok base) {way : List String} (below : way ≠ []) :
    tree.follow [] (root.join ⟨way⟩).segments = tree.follow base way := by
  rw [root.segments_join below, follow_append]
  obtain same | slashed := root.segments_eq_unslashed
  · rw [← same, followed]
    rfl
  · rw [slashed, follow_append] at followed
    cases bare : tree.follow [] root.unslashed with
    | error error =>
        rw [bare] at followed
        contradiction
    | ok there =>
        rw [bare] at followed
        simp only [Except.bind, follow] at followed ⊢
        split at followed
        · cases followed
          rfl
        · contradiction

/-! ## Changes -/

/-- What a change did to a tree that has written nothing but the files at `targets`: it can
    have added directories as well. -/
structure Changed (targets : List Location) (before after : FileTree) : Prop where
  directories : ∀ location, before.node? location = some .directory →
    after.node? location = some .directory
  files : ∀ location, location ∉ targets → ∀ content,
    (after.node? location = some (.file content) ↔
      before.node? location = some (.file content))
  written : ∀ location ∈ targets, before.node? location ≠ some .directory ∧
    ∃ content, after.node? location = some (.file content)

/-- A tree that was left as it is has no file changed in it. -/
theorem Changed.refl (tree : FileTree) : Changed [] tree tree :=
  ⟨fun _ found => found, fun _ _ _ => Iff.rfl, by simp⟩

/-- Two changes one after the other write the files of both, and files that neither has written are
    kept. -/
theorem Changed.trans {first second : List Location} {before between after : FileTree}
    (early : Changed first before between) (late : Changed second between after) :
    Changed (first ++ second) before after where
  directories location found := late.directories location (early.directories location found)
  files location untouched content := by
    rw [List.mem_append, not_or] at untouched
    exact (late.files location untouched.2 content).trans
      (early.files location untouched.1 content)
  written location touched := by
    constructor
    · obtain isFirst | isSecond := List.mem_append.mp touched
      · exact (early.written location isFirst).1
      · intro found
        exact (late.written location isSecond).1 (early.directories location found)
    · by_cases isSecond : location ∈ second
      · exact (late.written location isSecond).2
      · have isFirst := (List.mem_append.mp touched).resolve_right isSecond
        obtain ⟨content, found⟩ := (early.written location isFirst).2
        exact ⟨content, (late.files location isSecond content).mpr found⟩

/-- A file stays a file, though it may have been written to. -/
theorem Changed.file {targets : List Location} {before after : FileTree}
    (changed : Changed targets before after) {location : Location} {content : List UInt8}
    (found : before.node? location = some (.file content)) :
    ∃ content, after.node? location = some (.file content) := by
  by_cases touched : location ∈ targets
  · exact (changed.written location touched).2
  · exact ⟨content, (changed.files location touched content).mpr found⟩

/-- What can be followed before a change can be followed after it. -/
theorem Changed.follow {targets : List Location} {before after : FileTree}
    (changed : Changed targets before after) {here there : Location} {segments : List String}
    (followed : before.follow here segments = .ok there) :
    after.follow here segments = .ok there := by
  induction segments generalizing here with
  | nil => exact followed
  | cons segment segments ih =>
      simp only [FileTree.follow] at followed ⊢
      split at followed
      next isDirectory =>
        rw [changed.directories here isDirectory]
        simp only
        split at followed
        next isTrivial =>
          rw [if_pos isTrivial]
          exact ih followed
        next isTrivial =>
          rw [if_neg isTrivial]
          split at followed
          next isUp =>
            rw [if_pos isUp]
            exact ih followed
          next isUp =>
            rw [if_neg isUp]
            have stays : ∀ node, before.node? (here ++ [segment]) = some node →
                ∃ node, after.node? (here ++ [segment]) = some node := by
              intro node found
              cases node with
              | directory => exact ⟨.directory, changed.directories _ found⟩
              | file content =>
                  obtain ⟨content, isFile⟩ := changed.file found
                  exact ⟨.file content, isFile⟩
            split at followed
            next node found =>
              obtain ⟨later, isLater⟩ := stays node (entry?_some_iff.mp found)
              rw [entry?_some_iff.mpr isLater]
              exact ih followed
            next => contradiction
            next => contradiction
      next => contradiction

/-- A path that could be resolved still can, to the same location, since no directory and no file
    goes away. -/
theorem Changed.resolve {targets : List Location} {before after : FileTree}
    (changed : Changed targets before after) {path : Path} {location : Location}
    (resolved : before.resolve path = .ok location) : after.resolve path = .ok location := by
  rw [resolve_ok_iff] at resolved ⊢
  exact ⟨resolved.1, changed.follow resolved.2⟩

/-- A file that was not written to has kept its content, so reading it by its path gives the
    same. -/
theorem Changed.readFile {targets : List Location} {before after : FileTree}
    (changed : Changed targets before after) {path : Path} {content : List UInt8}
    (isRead : before.readFile path = .ok content) (untouched : path.location ∉ targets) :
    after.readFile path = .ok content := by
  obtain ⟨location, resolved, isFile⟩ := readFile_ok_iff.mp isRead
  obtain rfl := resolve_location resolved
  exact readFile_ok_iff.mpr
    ⟨path.location, changed.resolve resolved, (changed.files _ untouched content).mpr isFile⟩

/-- Putting something where no directory is keeps a tree well formed, if its name is proper and what
    it is put into is a directory. -/
theorem Valid.put {tree : FileTree} (valid : tree.Valid) {directory : Location} {name : String}
    (isDirectory : tree.node? directory = some .directory) (proper : ProperName name)
    (free : tree.node? (directory ++ [name]) ≠ some .directory) (node : Node) :
    (tree.put (directory ++ [name]) node).Valid := by
  have kept : ∀ location, tree.node? location = some .directory →
      (tree.put (directory ++ [name]) node).node? location = some .directory := by
    intro location found
    have different : location ≠ directory ++ [name] := by
      rintro rfl
      exact free found
    rw [node?_put_of_ne _ _ _ _ different, found]
  have names : ∀ part ∈ directory ++ [name], ProperName part := by
    intro part isPart
    obtain isAbove | rfl := by simpa using isPart
    · exact valid.proper_of_node isDirectory part isAbove
    · exact proper
  constructor
  · have remaining : (tree.entries.filter fun entry => entry.1 != directory ++ [name]).map Prod.fst
        |>.Nodup := (List.filter_sublist.map Prod.fst).nodup valid.distinct
    simpa [FileTree.put] using remaining
  · intro entry isEntry
    obtain rfl | ⟨isOld, -⟩ := by simpa [FileTree.put] using isEntry
    · simp
    · exact valid.below entry isOld
  · intro entry isEntry
    obtain rfl | ⟨isOld, -⟩ := by simpa [FileTree.put] using isEntry
    · exact names
    · exact valid.proper entry isOld
  · intro entry isEntry
    obtain rfl | ⟨isOld, -⟩ := by simpa [FileTree.put] using isEntry
    · simpa using kept directory isDirectory
    · exact kept _ (valid.inside entry isOld)

end FileTree

end Offside.Tool
