import Mathlib
import Offside.Proofs.Text.Encoding
import Offside.Proofs.Tool.Traversal

/-!
# What a run over a directory leaves behind

The sources below a directory are compiled up to the first that does not get through. Each of
those before it has its text in the file of its own that its name gives, and every other file is
as it was. The run succeeds if all sources get through and every directory that the walk comes
to can be listed.

A source that compiles, and whose text could be written, can still fail to be read: the path of
a file is longer than the path of the directory that it is found in.
-/

namespace Offside.Tool

open FileTree

namespace Job

variable (job : Job)

/-- The run gets past a source: every directory that comes before it can be listed, and it can
    be read, compiled and written on the tree that the sources before it have left. -/
def Completes (way : Location) : Prop :=
  (∀ other, job.Meets other → other < way → job.Lists other) ∧
    ∃ found next, job.Reaches (· < way) found ∧ job.advance found way = some next

variable {job : Job}

/-! ## Places of compiled sources -/

/-- All names on the way to a source are proper ones, since the tree has no others. -/
theorem proper_of_source {way : Location} (isSource : way ∈ job.sources) :
    ∀ name ∈ way, ProperName name := by
  obtain ⟨-, content, isFile⟩ := mem_sources.mp isSource
  exact fun name isName => job.valid.proper_of_node isFile name (List.mem_append_right _ isName)

/-- Different sources are compiled to different paths, for a target shows the names before it and
    the stem of its source. -/
theorem target_injective {first second : Location} (isFirst : first ∈ job.sources)
    (isSecond : second ∈ job.sources) (same : job.target first = job.target second) :
    first = second := by
  obtain ⟨front, stem, rfl, nonempty⟩ := Path.isSource_iff.mp (mem_sources.mp isFirst).1
  obtain ⟨otherFront, otherStem, rfl, alsoNonempty⟩ :=
    Path.isSource_iff.mp (mem_sources.mp isSecond).1
  rw [target_concat _ nonempty, target_concat _ alsoNonempty] at same
  obtain ⟨fronts, names⟩ := List.append_inj' (congrArg Path.segments same) rfl
  obtain rfl := Path.targetName_injective (List.singleton_inj.mp names)
  rw [List.append_cancel_left fronts]

/-- A source whose stem is not one point is compiled to the path with its name and the extension of
    Go, below the output. -/
theorem target_eq {front : List String} {stem : String} (nonempty : stem ≠ "")
    (notPoint : stem ≠ ".") :
    job.target (front ++ [stem ++ ".py"]) = job.output.join ⟨front ++ [stem ++ ".go"]⟩ := by
  have segments := job.output.segments_join
    (List.append_ne_nil_of_right_ne_nil front (List.cons_ne_nil (stem ++ ".go") []))
  rw [target_concat front nonempty, Path.targetName, if_neg notPoint, List.append_assoc,
    ← segments]

/-- A source is compiled to the place below the output that its own way gives. -/
theorem location_output {front : List String} {stem : String} (nonempty : stem ≠ "")
    (notPoint : stem ≠ ".") (isSource : front ++ [stem ++ ".py"] ∈ job.sources) :
    (job.target (front ++ [stem ++ ".py"])).location =
      job.output.location ++ (front ++ [stem ++ ".go"]) := by
  rw [target_eq nonempty notPoint]
  refine job.output.location_join fun name isName => ?_
  obtain isFront | isLast := List.mem_append.mp isName
  · exact proper_of_source isSource name (List.mem_append_left _ isFront)
  · rw [List.mem_singleton.mp isLast]
    exact properName_go stem

variable (job) in
/-- A source that was compiled to a file of its own. The one without a name for it, which is
    called by two points and its extension, is left out. -/
def Lands (way : Location) (after : FileTree) : Prop :=
  ∃ front stem content text, way = front ++ [stem ++ ".py"] ∧ stem ≠ "" ∧ stem ≠ "." ∧
    job.tree.node? (job.base ++ way) = some (.file content) ∧
    (compile content).outcome = .ok text ∧
    after.readFile (job.target way) = .ok text.toUTF8.toList

/-- Two sources that were compiled have different places. A place is found by following the names of
    a path, and both paths follow the output. -/
theorem Lands.separate {first second : Location} {after last : FileTree}
    (isFirst : first ∈ job.sources) (isSecond : second ∈ job.sources)
    (lands : job.Lands first after) (alsoLands : job.Lands second last)
    (same : (job.target first).location = (job.target second).location) : first = second := by
  obtain ⟨front, stem, -, -, rfl, nonempty, notPoint, -⟩ := lands
  obtain ⟨otherFront, otherStem, -, -, rfl, alsoNonempty, alsoNotPoint, -⟩ := alsoLands
  rw [location_output nonempty notPoint isFirst,
    location_output alsoNonempty alsoNotPoint isSecond] at same
  obtain ⟨rfl, names⟩ := List.append_inj' (List.append_cancel_left same) rfl
  obtain rfl := (String.append_left_inj ".go").mp (List.singleton_inj.mp names)
  rfl

/-- A source that was compiled has landed in later trees, too, as long as nothing else is written to
    its place. -/
theorem Lands.mono {way : Location} {before after : FileTree} (lands : job.Lands way before)
    {targets : List Location} (changed : Changed targets before after)
    (untouched : (job.target way).location ∉ targets) : job.Lands way after := by
  obtain ⟨front, stem, content, text, isWay, nonempty, notPoint, isFile, compiles, isRead⟩ := lands
  exact ⟨front, stem, content, text, isWay, nonempty, notPoint, isFile, compiles,
    changed.readFile isRead untouched⟩

/-- A source that was compiled has landed: its directories are there, and the file in its place has
    its text. -/
theorem advance_lands (writes : job.options.check = false) {found next : FileTree}
    {targets : List Location} (produced : Produced targets job.tree found) {way : Location}
    (isSource : way ∈ job.sources) (advanced : job.advance found way = some next) :
    job.Lands way next := by
  obtain ⟨isSourceName, content, isFile⟩ := mem_sources.mp isSource
  obtain ⟨-, text, compiles, isNext⟩ := advance_content produced isSourceName isFile advanced
  obtain ⟨front, stem, rfl, nonempty⟩ := Path.isSource_iff.mp isSourceName
  rw [if_neg (by simp [writes])] at isNext
  have isTarget := @target_concat job front _ nonempty
  rw [isTarget] at isNext
  obtain ⟨proper, -, -, isWritten⟩ := written_ok produced.valid (targetName_ne stem) isNext
  have notPoint : stem ≠ "." := by
    rintro rfl
    exact proper.2 rfl
  exact ⟨front, stem, content, text, rfl, nonempty, notPoint, isFile, compiles,
    isTarget ▸ isWritten⟩

/-- Sources that were compiled one after another have all landed. The induction is on the sources,
    and what comes later goes to other places. -/
theorem run_lands (writes : job.options.check = false) {ways : List Location}
    (areSources : ∀ way ∈ ways, way ∈ job.sources) (distinct : ways.Nodup)
    {start found : FileTree} {targets : List Location} (produced : Produced targets job.tree start)
    (ran : ways.foldlM job.advance start = some found) :
    ∀ way ∈ ways, job.Lands way found := by
  induction ways generalizing start targets with
  | nil => simp
  | cons way ways ih =>
      rw [List.foldlM_cons, Option.bind_eq_bind, Option.bind_eq_some_iff] at ran
      obtain ⟨next, advanced, ran⟩ := ran
      have ⟨isSource, others⟩ := List.forall_mem_cons.mp areSources
      have ⟨fresh, rest⟩ := List.nodup_cons.mp distinct
      have isName := (mem_sources.mp isSource).1
      have step := advance_produced produced.valid isName advanced
      have laterLand := ih others rest (produced.trans step) ran
      have lands := advance_lands writes produced isSource advanced
      have later := run_produced step.valid
        (fun other isOther => (mem_sources.mp (others other isOther)).1) ran
      -- The sources that follow are written to other places.
      have untouched : (job.target way).location ∉ ways.flatMap job.places := by
        intro isPlace
        obtain ⟨other, isOther, isPlace⟩ := List.mem_flatMap.mp isPlace
        have same : (job.target way).location = (job.target other).location := by
          simpa [places, writes] using isPlace
        have isWay := lands.separate isSource (others other isOther) (laterLand other isOther) same
        exact fresh (isWay ▸ isOther)
      exact List.forall_mem_cons.mpr ⟨lands.mono later.changed untouched, laterLand⟩

/-! ## The whole run -/

variable (job) in
/-- What the files look like when some of the sources have been compiled. -/
structure Delivered (completed : List Location) (after : FileTree) : Prop where
  /-- Each of these sources has its text in the file below the output that has its name with
      the other extension. -/
  written : ∀ way ∈ completed, ∃ front stem content text, way = front ++ [stem ++ ".py"] ∧
    job.tree.node? (job.base ++ way) = some (.file content) ∧
    (compile content).outcome = .ok text ∧
    after.node? (job.output.location ++ (front ++ [stem ++ ".go"])) =
      some (.file text.toUTF8.toList) ∧
    after.readFile (job.output.join ⟨front ++ [stem ++ ".go"]⟩) = .ok text.toUTF8.toList
  /-- Every other file is as it was, and there is no new one. -/
  unchanged : ∀ location, (∀ front stem, front ++ [stem ++ ".py"] ∈ completed →
      job.output.location ++ (front ++ [stem ++ ".go"]) ≠ location) →
    ∀ content, after.node? location = some (.file content) ↔
      job.tree.node? location = some (.file content)
  /-- So is every source, wherever it is, and no file has become one. -/
  sources : ∀ front stem, stem ≠ "" → ∀ content,
    after.node? (front ++ [stem ++ ".py"]) = some (.file content) ↔
      job.tree.node? (front ++ [stem ++ ".py"]) = some (.file content)

/-- If some of the sources were compiled and nothing but directories was created after that, these
    sources are delivered and all other files are as they were. -/
theorem delivered_of_run (writes : job.options.check = false) {completed remaining : List Location}
    (isSplit : job.sources = completed ++ remaining) {found after : FileTree}
    (ran : completed.foldlM job.advance job.tree = some found) (grown : Grown found after) :
    job.Delivered completed after := by
  have areSources : ∀ way ∈ completed, way ∈ job.sources := fun way isCompleted =>
    isSplit ▸ List.mem_append_left remaining isCompleted
  have distinct : completed.Nodup := by
    have sorted := job.sources_sorted
    rw [isSplit, List.pairwise_append] at sorted
    exact sorted.1.imp ne_of_lt
  have produced := run_produced job.valid
    (fun way isCompleted => (mem_sources.mp (areSources way isCompleted)).1) ran
  have landed : ∀ way ∈ completed, job.Lands way after := fun way isCompleted =>
    (run_lands writes areSources distinct (.refl job.valid) ran way isCompleted).mono
      grown.changed (by simp)
  have changed := produced.changed.trans grown.changed
  rw [List.append_nil] at changed
  constructor
  · intro way isCompleted
    obtain ⟨front, stem, content, text, rfl, nonempty, notPoint, isFile, compiles, isRead⟩ :=
      landed way isCompleted
    obtain ⟨location, resolved, isWritten⟩ := readFile_ok_iff.mp isRead
    rw [resolve_location resolved,
      location_output nonempty notPoint (areSources _ isCompleted)] at isWritten
    rw [target_eq nonempty notPoint] at isRead
    exact ⟨front, stem, content, text, rfl, isFile, compiles, isWritten, isRead⟩
  · intro location elsewhere content
    refine changed.files location (fun isPlace => ?_) content
    obtain ⟨way, isCompleted, isPlace⟩ := List.mem_flatMap.mp isPlace
    obtain ⟨front, stem, -, -, rfl, nonempty, notPoint, -⟩ := landed way isCompleted
    have same : location = (job.target (front ++ [stem ++ ".py"])).location := by
      simpa [places, writes] using isPlace
    rw [location_output nonempty notPoint (areSources _ isCompleted)] at same
    exact elsewhere front stem isCompleted same.symm
  · intro front stem nonempty content
    refine changed.files _ (fun isPlace => ?_) content
    have noSource := produced.apart _ isPlace
    rw [Path.isSource_iff.mpr ⟨front, stem, rfl, nonempty⟩] at noSource
    contradiction

/-- A directory that is met is no source, even if its name is that of one. -/
theorem Meets.not_source {way : Location} (meets : job.Meets way) : way ∉ job.sources := by
  intro isSource
  cases meets with
  | root =>
      obtain ⟨front, stem, isEmpty, -⟩ := Path.isSource_iff.mp (mem_sources.mp isSource).1
      simp at isEmpty
  | inside above reached isDirectory =>
      obtain ⟨content, isFile⟩ := reached.source isSource
      rw [isDirectory] at isFile
      cases isFile

/-- The first source that is left when a walk has stopped does not get through. -/
theorem Stopped.not_completes {stop : Location} {last : FileTree} (stopped : job.Stopped stop last)
    {completed remaining : List Location} (isSplit : job.sources = completed ++ remaining)
    (isDone : ∀ way ∈ completed, way < stop) (isNot : ∀ way ∈ remaining, ¬ way < stop) :
    ∀ way ∈ remaining.head?, ¬ job.Completes way := by
  intro way isHead completes
  obtain ⟨others, rfl⟩ := List.head?_eq_some_iff.mp isHead
  have sorted := job.sources_sorted
  rw [isSplit, List.pairwise_append, List.pairwise_cons] at sorted
  have isSource : way ∈ job.sources := by simp [isSplit]
  obtain ⟨isStop, fails⟩ | ⟨meets, unlisted⟩ := stopped.reason
  · have same : way = stop := by
      rw [isSplit, List.mem_append] at isStop
      obtain isCompleted | isRemaining := isStop
      · exact absurd (isDone stop isCompleted) (lt_irrefl stop)
      · obtain same | isLater := List.mem_cons.mp isRemaining
        · exact same.symm
        · exact absurd (sorted.2.1.1 stop isLater) (isNot way (by simp))
    subst same
    obtain ⟨found, next, reached, advanced⟩ := completes.2
    rw [fails found reached] at advanced
    contradiction
  · have different : stop ≠ way := fun same => meets.not_source (same ▸ isSource)
    have before : stop < way := lt_of_le_of_ne (not_lt.mp (isNot way (by simp))) different
    exact unlisted (completes.1 stop meets before)

/-- The sources that a run gets past, and those that are left when it ends. -/
theorem run_split (job : Job) {arguments : List String}
    (asked : Request.ofArguments arguments = .run job.options) (input : List UInt8) :
    ∃ outcome after completed remaining found,
      (run (host input) arguments).run job.tree = (outcome, after) ∧
      job.sources = completed ++ remaining ∧
      completed.foldlM job.advance job.tree = some found ∧ Grown found after ∧
      (∀ way ∈ completed, job.Completes way) ∧
      (∀ way ∈ remaining.head?, ¬ job.Completes way) ∧
      (outcome.exit = 0 ↔ remaining = [] ∧ ∀ way, job.Meets way → job.Lists way) := by
  obtain ⟨outcome, after, ran, -, ⟨succeeds, passed⟩ | ⟨fails, stop, stopped⟩⟩ :=
    job.run_cases asked input
  · obtain ⟨completed, remaining, isSplit, isDone, isNot, compiled⟩ := passed.reached
    obtain ⟨targets, produced⟩ := passed.reached.produced
    have noneLeft : remaining = [] :=
      List.eq_nil_iff_forall_not_mem.mpr fun way isRemaining => isNot way isRemaining (by simp)
    have listed : ∀ way, job.Meets way → job.Lists way :=
      fun way meets => passed.listed way meets (by simp)
    refine ⟨outcome, after, completed, remaining, after, ran, isSplit, compiled,
      .refl produced.valid, fun way isCompleted => ?_, by simp [noneLeft], ?_⟩
    · have isSource : way ∈ job.sources := isSplit ▸ List.mem_append_left _ isCompleted
      exact ⟨fun other meets _ => listed other meets,
        passed.reached.before isSource (isDone way isCompleted)⟩
    · exact ⟨fun _ => ⟨noneLeft, listed⟩, fun _ => succeeds⟩
  · obtain ⟨found, reached, grown, -⟩ := stopped.reached
    have split := reached
    obtain ⟨completed, remaining, isSplit, isDone, isNot, compiled⟩ := split
    refine ⟨outcome, after, completed, remaining, found, ran, isSplit, compiled, grown,
      fun way isCompleted => ?_, stopped.not_completes isSplit isDone isNot, ?_⟩
    · have isSource : way ∈ job.sources := isSplit ▸ List.mem_append_left _ isCompleted
      have before := isDone way isCompleted
      exact ⟨fun other meets earlier => stopped.listed other meets (lt_trans earlier before),
        reached.before isSource before⟩
    · constructor
      · exact fun succeeds => absurd succeeds fails
      · rintro ⟨rfl, listed⟩
        obtain ⟨isStop, -⟩ | ⟨meets, unlisted⟩ := stopped.reason
        · rw [isSplit, List.append_nil] at isStop
          exact absurd (isDone stop isStop) (lt_irrefl stop)
        · exact absurd (listed stop meets) unlisted

/-- A run that compiles a directory goes through its sources in the order of their locations, up
    to the first that does not get through. It succeeds if all get through and every directory
    that is met can be listed. What it leaves behind are the compiled sources, and every other
    file as it was. -/
theorem directory_run (job : Job) (writes : job.options.check = false) {arguments : List String}
    (asked : Request.ofArguments arguments = .run job.options) (input : List UInt8) :
    ∃ outcome after completed remaining,
      (run (host input) arguments).run job.tree = (outcome, after) ∧
      (∀ way, way ∈ completed ++ remaining ↔ ∃ front stem content,
        way = front ++ [stem ++ ".py"] ∧ stem ≠ "" ∧
        job.tree.node? (job.base ++ way) = some (.file content)) ∧
      (completed ++ remaining).Pairwise (· < ·) ∧
      (∀ way ∈ completed, job.Completes way) ∧
      (∀ way ∈ remaining.head?, ¬ job.Completes way) ∧
      (outcome.exit = 0 ↔ remaining = [] ∧ ∀ way, job.Meets way → job.Lists way) ∧
      job.Delivered completed after ∧
      (∀ first ∈ completed ++ remaining, ∀ second ∈ completed ++ remaining,
        job.target first = job.target second → first = second) := by
  obtain ⟨outcome, after, completed, remaining, found, ran, isSplit, compiled, grown, completes,
    stops, exit⟩ := job.run_split asked input
  refine ⟨outcome, after, completed, remaining, ran, ?_, isSplit ▸ sources_sorted, completes, stops,
    exit, delivered_of_run writes isSplit compiled grown, ?_⟩
  · intro way
    rw [← isSplit, mem_sources, IsSource, Path.isSource_iff]
    constructor
    · rintro ⟨⟨front, stem, isWay, nonempty⟩, content, isFile⟩
      exact ⟨front, stem, content, isWay, nonempty, isFile⟩
    · rintro ⟨front, stem, content, isWay, nonempty, isFile⟩
      exact ⟨⟨front, stem, isWay, nonempty⟩, content, isFile⟩
  · rw [← isSplit]
    exact fun first isFirst second isSecond => target_injective isFirst isSecond

/-- A directory with two sources that is compiled into itself. What the run writes there is no
    source. -/
theorem directory_run_itself :
    ∃ job : Job, job.tree = ⟨[(["s"], .directory), (["s", "b"], .directory),
        (["s", "b", "c.py"], .file (Utf8.encode "import GoType\n")),
        (["s", "a.py"], .file (Utf8.encode "import GoType\n"))]⟩ ∧
      ∃ outcome after completed remaining,
        (run (host []) ["-i", "s", "-o", "s"]).run job.tree = (outcome, after) ∧
        ["a.py"] ∈ completed ++ remaining ∧ ["b", "c.py"] ∈ completed ++ remaining ∧
        (outcome.exit = 0 ↔ remaining = [] ∧ ∀ way, job.Meets way → job.Lists way) ∧
        job.Delivered completed after := by
  let job : Job :=
    { tree := ⟨[(["s"], .directory), (["s", "b"], .directory),
        (["s", "b", "c.py"], .file (Utf8.encode "import GoType\n")),
        (["s", "a.py"], .file (Utf8.encode "import GoType\n"))]⟩
      options := ⟨some (.ofText "s"), some (.ofText "s"), false, 0⟩
      root := .ofText "s"
      valid := by constructor <;> decide
      asked := rfl
      isDirectory := by decide }
  have asked : Request.ofArguments ["-i", "s", "-o", "s"] = .run job.options := by decide
  obtain ⟨outcome, after, completed, remaining, ran, visited, -, -, -, exit, delivered, -⟩ :=
    directory_run job rfl asked []
  refine ⟨job, rfl, outcome, after, completed, remaining, ran, ?_, ?_, exit, delivered⟩
  · exact (visited ["a.py"]).mpr ⟨[], "a", _, by decide, by decide, rfl⟩
  · exact (visited ["b", "c.py"]).mpr ⟨["b"], "c", _, by decide, by decide, rfl⟩

/-- A run fails at a source whose path is too long to be read. -/
theorem exit_of_long (job : Job) {arguments : List String}
    (asked : Request.ofArguments arguments = .run job.options) (input : List UInt8)
    {way : Location} (isSource : way ∈ job.sources)
    (long : pathLimit < (job.root.join ⟨way⟩).size) :
    ((run (host input) arguments).run job.tree).1.exit ≠ 0 := by
  obtain ⟨outcome, after, completed, remaining, found, ran, isSplit, -, -, completes, -, exit⟩ :=
    job.run_split asked input
  rw [ran]
  intro succeeds
  rw [(exit.mp succeeds).1, List.append_nil] at isSplit
  obtain ⟨-, earlier, next, -, advanced⟩ := completes way (isSplit ▸ isSource)
  obtain ⟨content, text, isRead, -⟩ := advance_eq_some_iff.mp advanced
  obtain ⟨location, resolved, -⟩ := readFile_ok_iff.mp isRead
  have short := (resolve_ok_iff.mp resolved).1
  omega

end Job

/-! ## A source that cannot be read -/

/-- A text without slashes is one segment, so cutting it at slashes leaves it whole. -/
theorem Path.splitSlashes_of_not_mem {chars : List Char} (unslashed : '/' ∉ chars) :
    Path.splitSlashes chars = [chars] := by
  induction chars with
  | nil => rfl
  | cons char chars ih =>
      simp only [List.mem_cons, not_or] at unslashed
      simp [Path.splitSlashes, Ne.symm unslashed.1, ih unslashed.2]

/-- In front of a slash there is one segment, and the text behind it is cut on its own. -/
theorem Path.splitSlashes_append {chars : List Char} (unslashed : '/' ∉ chars)
    (rest : List Char) :
    Path.splitSlashes (chars ++ '/' :: rest) = chars :: Path.splitSlashes rest := by
  induction chars with
  | nil => simp [Path.splitSlashes]
  | cons char chars ih =>
      simp only [List.mem_cons, not_or] at unslashed
      simp [Path.splitSlashes, Ne.symm unslashed.1, ih unslashed.2]

/-- The text of a path is cut at its slashes again, by induction on the segments. None of them may
    hold a slash itself. -/
theorem Path.ofText_text {segments : List String} (nonempty : segments ≠ [])
    (unslashed : ∀ segment ∈ segments, '/' ∉ segment.toList) :
    Path.ofText (Path.text ⟨segments⟩) = ⟨segments⟩ := by
  have cut : Path.splitSlashes (Path.text ⟨segments⟩).toList = segments.map String.toList := by
    unfold Path.text
    induction segments with
    | nil => contradiction
    | cons segment segments ih =>
        have ⟨first, others⟩ := List.forall_mem_cons.mp unslashed
        cases segments with
        | nil => simp [Path.splitSlashes_of_not_mem first]
        | cons next segments =>
            have slash : "/".toList = ['/'] := rfl
            rw [String.intercalate_cons_cons, String.toList_append, String.toList_append, slash,
              List.append_assoc, List.singleton_append, Path.splitSlashes_append first,
              ih (List.cons_ne_nil _ _) others]
            rfl
  simp [Path.ofText, cut, Function.comp_def]

/-- The directory `s`, with a number of points in front of it that lead nowhere. -/
def Path.pointed (count : Nat) : Path :=
  ⟨List.replicate count "." ++ ["s"]⟩

/-- The path with points in front is read from its text as it was written. -/
theorem Path.ofText_pointed (count : Nat) :
    Path.ofText (Path.pointed count).text = Path.pointed count := by
  refine Path.ofText_text (by simp) fun segment isSegment => ?_
  obtain isPoint | isLast := List.mem_append.mp isSegment
  · rw [List.eq_of_mem_replicate isPoint]
    decide
  · rw [List.mem_singleton.mp isLast]
    decide

/-- A path is longer by one slash than its first segment and the rest. -/
theorem Path.size_cons (first second : String) (rest : List String) :
    Path.size ⟨first :: second :: rest⟩ = first.utf8ByteSize + 1 + Path.size ⟨second :: rest⟩ := by
  have slash : "/".utf8ByteSize = 1 := by decide
  simp only [Path.size, Path.text, String.intercalate_cons_cons, String.utf8ByteSize_append, slash]

/-- Every point in front takes two bytes, itself and a slash, by induction on their number. -/
theorem Path.size_points (count : Nat) (first : String) (rest : List String) :
    Path.size ⟨List.replicate count "." ++ first :: rest⟩ =
      2 * count + Path.size ⟨first :: rest⟩ := by
  have point : ".".utf8ByteSize = 1 := by decide
  induction count with
  | zero => simp
  | succ count ih =>
      obtain ⟨next, others, isCons⟩ : ∃ next others,
          List.replicate count "." ++ first :: rest = next :: others :=
        List.exists_cons_of_ne_nil (by simp)
      rw [isCons] at ih
      rw [List.replicate_succ, List.cons_append, isCons, Path.size_cons, ih, point]
      omega

/-- Points in front lead nowhere else, so the path is followed to the same directory however many
    there are. -/
theorem FileTree.follow_pointed (tree : FileTree) (count : Nat) :
    tree.follow [] (Path.pointed count).segments = tree.follow [] ["s"] := by
  unfold Path.pointed
  induction count with
  | zero => rfl
  | succ count ih =>
      rw [List.replicate_succ, List.cons_append, follow, node?_root]
      exact ih

/-- The path can be given as a value, for its text starts with no hyphen and is not empty. -/
theorem Path.isValue_pointed (count : Nat) :
    Options.isValue (Path.pointed count).text = true ∧ (Path.pointed count).text ≠ "" := by
  cases count with
  | zero => decide
  | succ count =>
      have isText : (Path.pointed (count + 1)).text.toList =
          '.' :: '/' :: (Path.pointed count).text.toList := by
        obtain ⟨first, rest, isCons⟩ : ∃ first rest,
            (Path.pointed count).segments = first :: rest :=
          List.exists_cons_of_ne_nil (by simp [Path.pointed])
        have isNext : (Path.pointed (count + 1)).segments =
            "." :: (Path.pointed count).segments := rfl
        have joined : (Path.pointed (count + 1)).text =
            "." ++ "/" ++ (Path.pointed count).text := by
          rw [Path.text, Path.text, isNext, isCons, String.intercalate_cons_cons]
        rw [joined, String.toList_append]
        rfl
      constructor
      · simp [Options.isValue, isText]
      · intro empty
        simp [empty] at isText

/-- An input and an output, each given by itself, ask for a run with just these two and no check. -/
theorem ofArguments_input_output {input output : String} (isValue : Options.isValue input = true)
    (nonempty : input ≠ "") (alsoValue : Options.isValue output = true)
    (alsoNonempty : output ≠ "") :
    Request.ofArguments ["-i", input, "-o", output] =
      .run ⟨some (.ofText input), some (.ofText output), false, 0⟩ := by
  have first : ∀ options : Options, options.argument "-i" = .ok (options, some .input) :=
    fun _ => rfl
  have second : ∀ options : Options, options.argument "-o" = .ok (options, some .output) :=
    fun _ => rfl
  have options : "-i" ≠ "--" ∧ "-o" ≠ "--" := by decide
  simp [Request.ofArguments, Options.arguments, options, first, second, isValue, nonempty,
    alsoValue, alsoNonempty, Options.setValue, Options.empty, bind, Except.bind]

/-- A source in a directory whose own path is just short enough is not read. -/
theorem exit_of_pointed (count : Nat) (short : 2 * count + 1 ≤ pathLimit)
    (long : pathLimit < 2 * count + 6) {tree : FileTree} {source : List UInt8}
    (isTree : tree = ⟨[(["s"], .directory), (["s", "a.py"], .file source)]⟩) (valid : tree.Valid) :
    Request.ofArguments ["-i", (Path.pointed count).text, "-o", "out"] =
        .run ⟨some (.pointed count), some (.ofText "out"), false, 0⟩ ∧
      tree.isDirectory (.pointed count) = true ∧
      (∀ way, tree.IsSource (Path.pointed count).location way ↔ way = ["a.py"]) ∧
      ((run (host []) ["-i", (Path.pointed count).text, "-o", "out"]).run tree).1.exit ≠ 0 := by
  generalize isRoot : Path.pointed count = root
  have asked : Request.ofArguments ["-i", root.text, "-o", "out"] =
      .run ⟨some root, some (.ofText "out"), false, 0⟩ := by
    obtain ⟨isValue, nonempty⟩ := Path.isValue_pointed count
    have isOutput : Options.isValue "out" = true ∧ "out" ≠ "" := by decide
    have parsed := ofArguments_input_output isValue nonempty isOutput.1 isOutput.2
    rwa [Path.ofText_pointed, isRoot] at parsed
  have followed : tree.follow [] root.segments = .ok ["s"] := by
    rw [← isRoot, follow_pointed, isTree]
    rfl
  have isPlace : root.location = ["s"] := (follow_eq_descend followed).symm
  have isDirectory : tree.isDirectory root = true := by
    have size : root.size = 2 * count + Path.size ⟨["s"]⟩ :=
      isRoot ▸ Path.size_points count "s" []
    have last : Path.size ⟨["s"]⟩ = 1 := by decide
    have resolved := resolve_ok_iff.mpr ⟨by rw [size, last]; exact short, followed⟩
    unfold FileTree.isDirectory
    rw [resolved, isTree]
    rfl
  have isSource : ∀ way, tree.IsSource root.location way ↔ way = ["a.py"] := by
    intro way
    rw [isPlace]
    constructor
    · rintro ⟨-, content, isFile⟩
      have isEntry := valid.mem_entries_iff.mpr ⟨by simp, isFile⟩
      have same : way = ["a.py"] ∧ content = source := by simpa [isTree] using isEntry
      exact same.1
    · rintro rfl
      exact ⟨by decide, source, by rw [isTree]; rfl⟩
  refine ⟨asked, isDirectory, isSource, ?_⟩
  let job : Job :=
    ⟨tree, ⟨some root, some (.ofText "out"), false, 0⟩, root, valid, rfl, isDirectory⟩
  refine job.exit_of_long asked [] (Job.mem_sources.mpr ((isSource ["a.py"]).mpr rfl)) ?_
  have isPath : root.join ⟨["a.py"]⟩ = ⟨List.replicate count "." ++ ["s", "a.py"]⟩ := by
    simp [← isRoot, Path.pointed, Path.join]
  have size : Path.size ⟨["s", "a.py"]⟩ = 6 := by decide
  rw [isPath, Path.size_points, size]
  exact long

/-- The only source compiles and its text can be written, but the path of the directory is so
    long that the path of the source is too long to be read. -/
theorem not_exit_of_written :
    let source := Utf8.encode "import GoType\n"
    let tree : FileTree := ⟨[(["s"], .directory), (["s", "a.py"], .file source)]⟩
    let text := "package main\n\nfunc main() \x7b\n\x7d\n"
    Request.ofArguments ["-i", (Path.pointed 2046).text, "-o", "out"] =
        .run ⟨some (.pointed 2046), some (.ofText "out"), false, 0⟩ ∧
      tree.Valid ∧ tree.isDirectory (.pointed 2046) = true ∧
      (∀ way, tree.IsSource (Path.pointed 2046).location way ↔ way = ["a.py"]) ∧
      (compile source).outcome = .ok text ∧
      (tree.written (((Path.ofText "out").join ⟨["a.py"]⟩).target) text).isSome = true ∧
      ((run (host []) ["-i", (Path.pointed 2046).text, "-o", "out"]).run tree).1.exit ≠ 0 := by
  intro source tree text
  have valid : tree.Valid := by constructor <;> decide
  have short : 2 * 2046 + 1 ≤ pathLimit := by decide
  have long : pathLimit < 2 * 2046 + 6 := by decide
  have compiles : (compile source).outcome = .ok text := by
    dsimp only [source, text]
    cbv
  have writable : (tree.written (((Path.ofText "out").join ⟨["a.py"]⟩).target) text).isSome =
      true := by
    have isTarget : ((Path.ofText "out").join ⟨["a.py"]⟩).target = ⟨["out", "a.go"]⟩ := by decide
    have isParent : Path.parent? ⟨["out", "a.go"]⟩ = some ⟨["out"]⟩ := by decide
    have ready : tree.prepared ⟨["out", "a.go"]⟩ = (.ok (), tree.put ["out"] .directory) := by
      unfold prepared
      rw [isParent]
      simp only
      rw [createDirectories_run, ensureDirectory_run]
      rfl
    rw [isTarget, written, ready]
    rfl
  obtain ⟨asked, isDirectory, isSource, fails⟩ :=
    exit_of_pointed 2046 short long (rfl : tree = _) valid
  exact ⟨asked, valid, isDirectory, isSource, compiles, writable, fails⟩

end Offside.Tool
