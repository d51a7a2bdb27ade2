import Offside.Proofs.Tool.Effects
import Offside.Proofs.Tool.Listing

/-!
# The sources of a directory, one after another

The sources below a directory are compiled in the order of their locations. Each of them is
read, compiled and written on the tree that the ones before it have left, so the trees follow
from one another. Whatever is written on the way is no source, and it is put at the same place
whatever the tree looks like. So every source is still there as it was at the start, and what
was compiled once stays.
-/

namespace Offside.Tool

open FileTree

/-- A directory of a well-formed tree, and the options of a run that compiles it. -/
structure Job where
  tree : FileTree
  options : Options
  root : Path
  valid : tree.Valid
  asked : options.input = some root
  isDirectory : tree.isDirectory root = true

namespace Job

variable (job : Job)

/-- Where the directory is. -/
def base : Location :=
  job.root.location

/-- The sources below the directory, as seen from it and in order. -/
def sources : List Location :=
  job.tree.sourcesBelow job.base

/-- The directory that the sources are compiled into. -/
def output : Path :=
  job.options.output.getD defaultOutput

/-- The path that a source is compiled to. -/
def target (way : Location) : Path :=
  (job.output.join ⟨way⟩).target

/-- Where the compiled source is written, if anything is written at all. -/
def places (way : Location) : List Location :=
  if job.options.check then [] else [(job.target way).location]

/-- The tree after one more source was read, compiled and written. There is none if any of this
    goes wrong. -/
def advance (found : FileTree) (way : Location) : Option FileTree := do
  let content ← (found.readFile (job.root.join ⟨way⟩)).toOption
  let text ← (compile content).outcome.toOption
  if job.options.check then return found else found.written (job.target way) text

/-- The tree that is left when the sources that are `done` have been compiled and the others, all
    of which come later, have not. -/
def Reaches (done : Location → Prop) (found : FileTree) : Prop :=
  ∃ completed remaining, job.sources = completed ++ remaining ∧ (∀ way ∈ completed, done way) ∧
    (∀ way ∈ remaining, ¬ done way) ∧ completed.foldlM job.advance job.tree = some found

variable {job : Job}

/-- The root of a job leads to its base, where a directory stands. -/
theorem resolved : job.tree.resolve job.root = .ok job.base ∧
    job.tree.node? job.base = some .directory := by
  have isDirectory := job.isDirectory
  unfold FileTree.isDirectory at isDirectory
  split at isDirectory
  next location found =>
    obtain rfl := resolve_location found
    exact ⟨found, beq_iff_eq.mp isDirectory⟩
  next => contradiction

/-- The sources of a job are all sources that stand below its base, and nothing else. -/
theorem mem_sources {way : Location} : way ∈ job.sources ↔ job.tree.IsSource job.base way :=
  job.valid.mem_sourcesBelow

/-- The sources of a job are in the order of their locations, each one once. -/
theorem sources_sorted : job.sources.Pairwise (· < ·) :=
  job.valid.sourcesBelow_sorted job.base

/-! ## One source -/

/-- One more source gets through exactly if it can be read and compiled, and its text can be written
    unless the check is on. -/
theorem advance_eq_some_iff {found next : FileTree} {way : Location} :
    job.advance found way = some next ↔
      ∃ content text, found.readFile (job.root.join ⟨way⟩) = .ok content ∧
        (compile content).outcome = .ok text ∧
        (if job.options.check then some found else found.written (job.target way) text) =
          some next := by
  have toOption : ∀ {ε α : Type} {result : Except ε α} {value : α},
      result.toOption = some value ↔ result = .ok value := by
    intro ε α result value
    cases result <;> simp [Except.toOption]
  simp only [advance, Option.bind_eq_bind, Option.bind_eq_some_iff, toOption, Option.pure_def]
  constructor
  · rintro ⟨content, isRead, text, isText, isNext⟩
    exact ⟨content, text, isRead, isText, isNext⟩
  · rintro ⟨content, text, isRead, isText, isNext⟩
    exact ⟨content, isRead, text, isText, isNext⟩

/-- The path that a source is compiled to, name by name: the output, the directories on the way to
    the source, and the name with its extension replaced. -/
theorem target_concat (front : List String) {stem : String} (nonempty : stem ≠ "") :
    job.target (front ++ [stem ++ ".py"]) =
      ⟨job.output.unslashed ++ front ++ [Path.targetName stem]⟩ := by
  have segments := job.output.segments_join
    (List.append_ne_nil_of_right_ne_nil front (List.cons_ne_nil (stem ++ ".py") []))
  unfold target
  rw [← Path.target_concat _ nonempty, List.append_assoc, ← segments]

/-- The name that a source is compiled to is not empty, so it is a name that can be looked up. -/
theorem targetName_ne (stem : String) : Path.targetName stem ≠ "" := by
  unfold Path.targetName
  split
  · decide
  · intro empty
    simpa using congrArg String.length empty

/-- What compiling sources does to a tree: it stays well formed, only files at `targets` have
    changed, and none of these is a source. -/
structure Produced (targets : List Location) (before after : FileTree) : Prop where
  valid : after.Valid
  changed : Changed targets before after
  apart : ∀ location ∈ targets, Path.isSource ⟨location⟩ = false

/-- If nothing was compiled, the tree is as it should be with no target at all. -/
theorem Produced.refl {found : FileTree} (valid : found.Valid) : Produced [] found found :=
  ⟨valid, .refl found, by simp⟩

/-- What two rows of sources produce one after the other, both rows together produce, at the targets
    of both. -/
theorem Produced.trans {first second : List Location} {before between after : FileTree}
    (early : Produced first before between) (late : Produced second between after) :
    Produced (first ++ second) before after where
  valid := late.valid
  changed := early.changed.trans late.changed
  apart location isTarget := by
    obtain isFirst | isSecond := List.mem_append.mp isTarget
    · exact early.apart location isFirst
    · exact late.apart location isSecond

/-- A source stands where it stood, with the same content, since no source is among the files that
    have changed. -/
theorem Produced.source {targets : List Location} {before after : FileTree}
    (produced : Produced targets before after) {location : Location}
    (isSource : Path.isSource ⟨location⟩ = true) (content : List UInt8) :
    after.node? location = some (.file content) ↔
      before.node? location = some (.file content) := by
  refine produced.changed.files location (fun isTarget => ?_) content
  rw [produced.apart location isTarget] at isSource
  contradiction

/-- Where a source is written if it can be: at the location that the output and its directories lead
    to, under its new name. -/
theorem location_target {front : List String} {stem : String} (nonempty : stem ≠ "")
    (proper : ProperName (Path.targetName stem)) :
    (job.target (front ++ [stem ++ ".py"])).location =
      Location.descend [] (job.output.unslashed ++ front) ++ [Path.targetName stem] := by
  rw [target_concat front nonempty, Path.location, Location.descend_append,
    Location.descend_proper]
  simpa using proper

/-- One more source that gets through produces nothing but the file at its place, and none if the
    check is on. -/
theorem advance_produced {found next : FileTree} (valid : found.Valid) {way : Location}
    (isSource : Path.isSource ⟨way⟩ = true) (advanced : job.advance found way = some next) :
    Produced (job.places way) found next := by
  obtain ⟨content, text, -, -, isNext⟩ := advance_eq_some_iff.mp advanced
  unfold places
  by_cases check : job.options.check = true
  · rw [if_pos check] at isNext ⊢
    obtain rfl := Option.some.inj isNext
    exact .refl valid
  · rw [if_neg check] at isNext ⊢
    obtain ⟨front, stem, rfl, nonempty⟩ := Path.isSource_iff.mp isSource
    rw [target_concat front nonempty] at isNext
    obtain ⟨proper, stillValid, changed, -⟩ := written_ok valid (targetName_ne stem) isNext
    rw [location_target nonempty proper]
    refine ⟨stillValid, changed, fun location isTarget => ?_⟩
    rw [List.mem_singleton.mp isTarget]
    exact Path.isSource_target _ stem

/-- A source is read as it was at the start, whatever was written before it. Its path is short
    enough and its content compiles. -/
theorem advance_content {targets : List Location} {found next : FileTree}
    (produced : Produced targets job.tree found) {way : Location} {content : List UInt8}
    (isSource : Path.isSource ⟨way⟩ = true)
    (isFile : job.tree.node? (job.base ++ way) = some (.file content))
    (advanced : job.advance found way = some next) :
    (job.root.join ⟨way⟩).size ≤ pathLimit ∧ ∃ text, (compile content).outcome = .ok text ∧
      (if job.options.check then some found else found.written (job.target way) text) =
        some next := by
  have nonempty : way ≠ [] := by
    rintro rfl
    contradiction
  have stillFile := (produced.source (by rwa [Path.isSource_append _ nonempty]) content).mpr isFile
  obtain ⟨readContent, text, isRead, compiles, isNext⟩ := advance_eq_some_iff.mp advanced
  rw [produced.valid.readFile_join (produced.changed.resolve job.resolved.1) stillFile] at isRead
  split at isRead
  next short =>
    cases isRead
    exact ⟨short, text, compiles, isNext⟩
  next => contradiction

/-! ## Several sources -/

/-- A row of sources that get through produces the files at their places. The induction is on the
    row. -/
theorem run_produced {ways : List Location} {start found : FileTree} (valid : start.Valid)
    (areSources : ∀ way ∈ ways, Path.isSource ⟨way⟩ = true)
    (ran : ways.foldlM job.advance start = some found) :
    Produced (ways.flatMap job.places) start found := by
  induction ways generalizing start with
  | nil =>
      obtain rfl := Option.some.inj ran
      exact .refl valid
  | cons way ways ih =>
      rw [List.foldlM_cons, Option.bind_eq_bind, Option.bind_eq_some_iff] at ran
      obtain ⟨next, advanced, ran⟩ := ran
      have ⟨first, others⟩ := List.forall_mem_cons.mp areSources
      have step := advance_produced valid first advanced
      exact step.trans (ih step.valid others ran)

/-- What has been reached differs from the start in what the sources that are done are compiled
    to. -/
theorem Reaches.produced {done : Location → Prop} {found : FileTree}
    (reaches : job.Reaches done found) :
    ∃ targets, Produced targets job.tree found := by
  obtain ⟨completed, remaining, isSplit, -, -, ran⟩ := reaches
  refine ⟨_, run_produced job.valid (fun way isCompleted => ?_) ran⟩
  have isSource : way ∈ job.sources := isSplit ▸ List.mem_append_left remaining isCompleted
  exact (mem_sources.mp isSource).1

/-- Whether a tree is reached depends on which of the sources are done, not on what else is counted
    as done. -/
theorem Reaches.congr {done other : Location → Prop} {found : FileTree}
    (reaches : job.Reaches done found) (same : ∀ way ∈ job.sources, done way ↔ other way) :
    job.Reaches other found := by
  obtain ⟨completed, remaining, isSplit, isDone, isNot, ran⟩ := reaches
  rw [isSplit] at same
  refine ⟨completed, remaining, isSplit, fun way isWay => ?_, fun way isWay => ?_, ran⟩
  · exact (same way (List.mem_append_left _ isWay)).mp (isDone way isWay)
  · exact fun isOther => isNot way isWay ((same way (List.mem_append_right _ isWay)).mpr isOther)

/-- There is one tree at most that is left when certain sources are done, since each of them leaves
    one. -/
theorem Reaches.unique {done : Location → Prop} {found other : FileTree}
    (first : job.Reaches done found) (second : job.Reaches done other) : found = other := by
  obtain ⟨completed, remaining, isSplit, isDone, isNot, ran⟩ := first
  obtain ⟨alsoCompleted, alsoRemaining, alsoSplit, alsoDone, alsoNot, alsoRan⟩ := second
  have same : completed = alsoCompleted := by
    obtain ⟨more, rfl, rfl⟩ | ⟨more, rfl, rfl⟩ :=
      List.append_eq_append_iff.mp (isSplit.symm.trans alsoSplit)
    · cases more with
      | nil => simp
      | cons way more => exact absurd (alsoDone way (by simp)) (isNot way (by simp))
    · cases more with
      | nil => simp
      | cons way more => exact absurd (isDone way (by simp)) (alsoNot way (by simp))
  rw [same, alsoRan] at ran
  exact (Option.some.inj ran).symm

/-- If no source is done, the tree is that of the start. -/
theorem Reaches.start {done : Location → Prop} (none : ∀ way ∈ job.sources, ¬ done way) :
    job.Reaches done job.tree :=
  ⟨[], job.sources, rfl, by simp, none, rfl⟩

/-- One more source is done: where all before it are, it is the next, and the tree that it leaves is
    the one for all up to it. -/
theorem Reaches.advance {found next : FileTree} {way : Location} (isSource : way ∈ job.sources)
    (reaches : job.Reaches (· < way) found) (advanced : job.advance found way = some next) :
    job.Reaches (fun other => other < way ∨ other = way) next := by
  obtain ⟨completed, remaining, isSplit, isDone, isNot, ran⟩ := reaches
  have sorted := job.sources_sorted
  rw [isSplit] at isSource sorted
  have isRemaining : way ∈ remaining := by
    refine (List.mem_append.mp isSource).resolve_left fun isCompleted => ?_
    exact lt_irrefl way (isDone way isCompleted)
  -- Nothing comes before the source among those that are left.
  cases remaining with
  | nil => contradiction
  | cons first others =>
      have later := (List.pairwise_cons.mp (List.pairwise_append.mp sorted).2.1).1
      have isFirst : first = way := by
        obtain same | isOther := List.mem_cons.mp isRemaining
        · exact same.symm
        · exact absurd (later way isOther) (isNot first (by simp))
      subst isFirst
      refine ⟨completed ++ [first], others, by simp [isSplit], ?_, ?_, ?_⟩
      · intro other isOther
        obtain isCompleted | rfl := by simpa using isOther
        · exact .inl (isDone other isCompleted)
        · exact .inr rfl
      · intro other isOther isBefore
        have isLater := later other isOther
        obtain less | rfl := isBefore
        · exact lt_asymm less isLater
        · exact lt_irrefl _ isLater
      · rw [List.foldlM_append, ran]
        simp [advanced]

/-- Every source that is done was compiled on the tree that those before it had left. -/
theorem Reaches.before {done : Location → Prop} {found : FileTree}
    (reaches : job.Reaches done found) {way : Location} (isSource : way ∈ job.sources)
    (isDone : done way) :
    ∃ earlier next, job.Reaches (· < way) earlier ∧ job.advance earlier way = some next := by
  obtain ⟨completed, remaining, isSplit, -, isNot, ran⟩ := reaches
  have sorted := job.sources_sorted
  rw [isSplit] at isSource
  have isCompleted : way ∈ completed := by
    refine (List.mem_append.mp isSource).resolve_right fun isRemaining => ?_
    exact isNot way isRemaining isDone
  obtain ⟨front, back, rfl⟩ := List.append_of_mem isCompleted
  rw [List.foldlM_append, Option.bind_eq_bind, Option.bind_eq_some_iff] at ran
  obtain ⟨earlier, isEarlier, ran⟩ := ran
  rw [List.foldlM_cons, Option.bind_eq_bind, Option.bind_eq_some_iff] at ran
  obtain ⟨next, advanced, -⟩ := ran
  rw [isSplit, List.append_assoc, List.pairwise_append, List.cons_append, List.pairwise_cons]
    at sorted
  refine ⟨earlier, next, ⟨front, way :: back ++ remaining, by simp [isSplit], ?_, ?_, isEarlier⟩,
    advanced⟩
  · exact fun other isFront => sorted.2.2 other isFront way (by simp)
  · intro other isOther less
    obtain rfl | isLater := List.mem_cons.mp isOther
    · exact lt_irrefl _ less
    · exact lt_asymm less (sorted.2.1.1 other isLater)

end Job

end Offside.Tool
