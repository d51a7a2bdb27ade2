import Offside.Proofs.Tool.Jobs

/-!
# The walk through a directory

A walk lists a directory when it comes to it, on the tree that the sources before it have left.
That tree can hold more than the one at the start, for the run itself creates directories and
writes files below the directory it walks through. None of them is a source, but a new directory
is walked through like any other, and it ends the walk if its path is too long to be listed.

So the walk meets the sources in the order of their locations. It gets past all of them, or it
stops at the first location where something goes wrong: a source that cannot be read, compiled
or written, or a directory that cannot be listed.
-/

namespace Offside.Tool

open FileTree

/-- A path has at most one segment more than it has bytes: there is a slash between any two. -/
theorem Path.length_le_size (path : Path) : path.segments.length ≤ path.size + 1 := by
  obtain ⟨segments⟩ := path
  simp only [Path.size, Path.text]
  induction segments with
  | nil => simp
  | cons segment segments ih =>
      cases segments with
      | nil => simp
      | cons next segments =>
          rw [String.intercalate_cons_cons, String.utf8ByteSize_append,
            String.utf8ByteSize_append]
          have slash : "/".utf8ByteSize = 1 := by decide
          simp only [List.length_cons] at ih ⊢
          omega

namespace Job

variable (job : Job)

/-- A directory can be listed by its path, which is not too long. -/
def Lists (way : Location) : Prop :=
  (job.root.join ⟨way⟩).size ≤ pathLimit

/-- The directories that a walk comes to: each was in the one above it when this was listed,
    after the sources in front of it were compiled. -/
inductive Meets : Location → Prop where
  | root : Meets []
  | inside {way : Location} {name : String} {found : FileTree} (above : Meets way)
      (reached : job.Reaches (· < way) found)
      (isDirectory : found.node? (job.base ++ (way ++ [name])) = some .directory) :
      Meets (way ++ [name])

/-- The walk got past everything at `way` and below it. -/
structure Passed (way : Location) (found : FileTree) : Prop where
  reached : job.Reaches (fun other => other < way ∨ way <+: other) found
  listed : ∀ other, job.Meets other → other < way ∨ way <+: other → job.Lists other

/-- The walk came to an end at `way`: there is a source that does not get through, or a
    directory that cannot be listed. At most directories were created since, and nothing at all
    if nothing is to be written. -/
structure Stopped (way : Location) (last : FileTree) : Prop where
  listed : ∀ other, job.Meets other → other < way → job.Lists other
  reached : ∃ found, job.Reaches (· < way) found ∧ Grown found last ∧
    (job.options.check = true → last = found)
  reason : (way ∈ job.sources ∧
      ∀ found, job.Reaches (· < way) found → job.advance found way = none) ∨
    (job.Meets way ∧ ¬ job.Lists way)

variable {job : Job}

/-- One source is compiled as its job says, and the tree that it leaves is the next one of the job.
    If it fails, at most directories were created. -/
theorem leads_compileBelow (input : List UInt8) {found : FileTree} (valid : found.Valid)
    (way : Location) :
    (∃ next, Leads (compileBelow (host input) job.options job.root ⟨way⟩) found (.ok ()) next ∧
      job.advance found way = some next) ∨
    (∃ error last, Leads (compileBelow (host input) job.options job.root ⟨way⟩) found
      (.error error) last ∧ job.advance found way = none ∧ Grown found last ∧
      (job.options.check = true → last = found)) := by
  have isRead : ((host input).readFile (job.root.join ⟨way⟩)).run found =
      (found.readFile (job.root.join ⟨way⟩), found) := rfl
  unfold compileBelow
  cases read : found.readFile (job.root.join ⟨way⟩) with
  | error error =>
      rw [read] at isRead
      have isNone : job.advance found way = none := by simp [Job.advance, read, Except.toOption]
      exact .inr ⟨_, found, (leads_perform_error isRead).bind_error, isNone, .refl valid,
        fun _ => rfl⟩
  | ok content =>
      rw [read] at isRead
      have afterReading : Leads (perform ((host input).readFile (job.root.join ⟨way⟩))
          (.readSource (job.root.join ⟨way⟩))) found (.ok content) found := leads_perform_ok isRead
      have compiled := leads_compileSource (job.root.join ⟨way⟩) content found
      cases outcome : (compile content).outcome with
      | error failure =>
          rw [outcome] at compiled
          have isNone : job.advance found way = none := by
            simp [Job.advance, read, outcome, Except.toOption]
          exact .inr ⟨_, found, afterReading.bind compiled.bind_error, isNone, .refl valid,
            fun _ => rfl⟩
      | ok text =>
          rw [outcome] at compiled
          have advanced : job.advance found way =
              if job.options.check then some found else found.written (job.target way) text := by
            simp [Job.advance, read, outcome, Except.toOption]
          rw [advanced]
          by_cases check : job.options.check = true
          · refine .inl ⟨found, afterReading.bind (compiled.bind ?_), if_pos check⟩
            simpa [check] using leads_pure () found
          · rw [if_neg check]
            obtain ⟨next, wrote, isNext⟩ | ⟨error, last, refused, isNone, grown⟩ :=
              leads_writeOutput valid input (job.target way) text
            · refine .inl ⟨next, afterReading.bind (compiled.bind ?_), isNext⟩
              simpa [check, Job.target, Job.output] using wrote
            · refine .inr ⟨error, last, afterReading.bind (compiled.bind ?_), isNone, grown,
                fun isCheck => absurd isCheck check⟩
              simpa [check, Job.target, Job.output] using refused

/-! ## What is met, and in which order -/

/-- A directory that is met inside another one was there when that one was listed, after the sources
    in front of it were compiled. -/
theorem Meets.inside_inv {way : Location} {name : String} (meets : job.Meets (way ++ [name])) :
    job.Meets way ∧ ∃ found, job.Reaches (· < way) found ∧
      found.node? (job.base ++ (way ++ [name])) = some .directory := by
  generalize whole : way ++ [name] = other at meets
  cases meets with
  | root => simp at whole
  | inside above reached isDirectory =>
      obtain ⟨rfl, same⟩ := List.append_inj' whole rfl
      obtain rfl := List.singleton_inj.mp same
      exact ⟨above, _, reached, isDirectory⟩

/-- Whatever is on the way to a directory that is met is met as well. -/
theorem Meets.above {way rest : Location} (meets : job.Meets (way ++ rest)) :
    job.Meets way := by
  induction rest using List.reverseRecOn with
  | nil => simpa using meets
  | append_singleton rest name ih =>
      rw [← List.append_assoc] at meets
      exact ih meets.inside_inv.1

/-- A directory that was met is found when the one above it is listed. -/
theorem Meets.isDirectory {way : Location} {name : String} (meets : job.Meets (way ++ [name]))
    {listed : FileTree} (reached : job.Reaches (· < way) listed) :
    listed.node? (job.base ++ (way ++ [name])) = some .directory := by
  obtain ⟨-, found, alsoReached, isDirectory⟩ := meets.inside_inv
  rwa [alsoReached.unique reached] at isDirectory

/-- A source stays where it is until the end of the walk. -/
theorem Reaches.source {done : Location → Prop} {found : FileTree}
    (reaches : job.Reaches done found) {way : Location} (isSource : way ∈ job.sources) :
    ∃ content, found.node? (job.base ++ way) = some (.file content) := by
  obtain ⟨-, content, isFile⟩ := mem_sources.mp isSource
  obtain ⟨targets, produced⟩ := reaches.produced
  exact produced.changed.file isFile

/-- No source lies below a file, so one that is at or below a file is that file. -/
theorem Reaches.source_below {done : Location → Prop} {found : FileTree}
    (reaches : job.Reaches done found) {way : Location} {content : List UInt8}
    (isFile : found.node? (job.base ++ way) = some (.file content)) {other : Location}
    (isSource : other ∈ job.sources) (below : way <+: other) : other = way := by
  obtain ⟨rest, rfl⟩ := below
  by_cases none : rest = []
  · simp [none]
  · obtain ⟨-, otherContent, isOther⟩ := mem_sources.mp isSource
    rw [← List.append_assoc] at isOther
    have isDirectory := job.valid.directory_of_node none isOther
    obtain ⟨targets, produced⟩ := reaches.produced
    rw [produced.changed.directories _ isDirectory] at isFile
    cases isFile

/-- What comes before a name of a directory: whatever comes before the directory, and whatever
    lies below an earlier name. -/
theorem lt_concat_iff {way other : Location} {seen later : List String} {name : String}
    (sorted : (seen ++ name :: later).Pairwise (· < ·))
    (named : ∀ first rest, other = way ++ first :: rest → first ∈ seen ++ name :: later)
    (different : other ≠ way) :
    other < way ++ [name] ↔ other < way ∨ ∃ first ∈ seen, way ++ [first] <+: other := by
  obtain ⟨-, late, early⟩ := List.pairwise_append.mp sorted
  obtain before | ⟨rest, rfl⟩ | after := Location.order_cases way other
  · have stillBefore : other < way ++ [name] := lt_trans before (Location.lt_append way name [])
    simp [before, stillBefore]
  · cases rest with
    | nil => simp at different
    | cons first rest =>
        have notBefore : ¬ way ++ first :: rest < way := lt_asymm (Location.lt_append way _ _)
        have isPrefix : ∀ other, way ++ [other] <+: way ++ first :: rest ↔ other = first := by
          intro other
          simp [List.prefix_append_right_inj, List.cons_prefix_cons]
        have isEarlier : first < name ↔ first ∈ seen := by
          constructor
          · intro less
            obtain isSeen | isLater := List.mem_append.mp (named first rest rfl)
            · exact isSeen
            · obtain rfl | isLater := List.mem_cons.mp isLater
              · exact absurd less (lt_irrefl _)
              · exact absurd less (lt_asymm ((List.pairwise_cons.mp late).1 first isLater))
          · exact fun isSeen => early first isSeen name (by simp)
        simp [Location.append_lt_append_iff, List.cons_lt_cons_iff, notBefore, isPrefix, isEarlier]
  · have notBefore : ¬ other < way ++ [name] := lt_asymm (after [name])
    have notAbove : ¬ other < way := by simpa using lt_asymm (after [])
    have notBelow : ∀ first, ¬ way ++ [first] <+: other := by
      rintro first ⟨rest, rfl⟩
      exact absurd (after (first :: rest)) (by simp)
    simp [notBefore, notAbove, notBelow]

/-! ## The walk -/

variable (job) in
/-- What a part of a walk comes to: it gets past everything at `way` and keeps the directories
    that were there `since`, or it stops. -/
def Walks (action : Action (StateM FileTree) Nat) (since found : FileTree)
    (way : Location) : Prop :=
  (∃ count last, Leads action found (.ok count) last ∧ job.Passed way last ∧
    ∀ location, since.node? location = some .directory →
      last.node? location = some .directory) ∨
  (∃ error last stop, Leads action found (.error error) last ∧ job.Stopped stop last)

/-- A walk gets past an entry, or stops at it or inside it. -/
theorem walks_compileEntry (input : List UInt8) {listed found : FileTree} {way : Location}
    {entry : Entry} (isEntry : entry ∈ listed.entriesIn (job.base ++ way))
    (atListing : job.Reaches (· < way) listed)
    (reached : job.Reaches (· < way ++ [entry.name]) found)
    (clear : ∀ other, job.Meets other → other < way ++ [entry.name] → job.Lists other)
    {within : List String → Action (StateM FileTree) Nat}
    (inner : listed.node? (job.base ++ (way ++ [entry.name])) = some .directory →
      job.Walks (within (way ++ [entry.name])) found found (way ++ [entry.name])) :
    job.Walks (compileEntry (host input) job.options job.root within (way ++ [entry.name])
      entry.isDirectory) found found (way ++ [entry.name]) := by
  obtain ⟨listedTargets, listedProduced⟩ := atListing.produced
  obtain ⟨node, isNode, isKind⟩ := listedProduced.valid.mem_entriesIn.mp isEntry
  rw [List.append_assoc] at isNode
  unfold compileEntry
  cases node with
  | directory =>
      rw [isKind]
      exact inner isNode
  | file content =>
      -- Nothing else lies at the place of a file or below it.
      have alone : ∀ other ∈ job.sources, way ++ [entry.name] <+: other →
          other = way ++ [entry.name] :=
        fun other isSource below => atListing.source_below isNode isSource below
      have unmet : ∀ other, job.Meets other → ¬ way ++ [entry.name] <+: other := by
        rintro other meets ⟨rest, rfl⟩
        rw [meets.above.isDirectory atListing] at isNode
        cases isNode
      have listedHere : ∀ other, job.Meets other →
          other < way ++ [entry.name] ∨ way ++ [entry.name] <+: other → job.Lists other := by
        intro other meets place
        exact clear other meets (place.resolve_right (unmet other meets))
      rw [isKind, if_neg (by simp)]
      by_cases isSource : Path.isSource ⟨way ++ [entry.name]⟩ = true
      · rw [if_pos isSource]
        have isListed : way ++ [entry.name] ∈ job.sources := by
          refine mem_sources.mpr ⟨isSource, content, ?_⟩
          refine (listedProduced.source ?_ content).mp isNode
          rwa [Path.isSource_append _ (by simp)]
        obtain ⟨targets, produced⟩ := reached.produced
        obtain ⟨next, compiled, advanced⟩ | ⟨error, last, failed, isNone, grown, same⟩ :=
          @leads_compileBelow job input _ produced.valid (way ++ [entry.name])
        · refine .inl ⟨1, next, compiled.bind (leads_pure 1 next), ⟨?_, listedHere⟩, ?_⟩
          · refine (reached.advance isListed advanced).congr fun other isOther => ?_
            refine or_congr_right ⟨?_, alone other isOther⟩
            rintro rfl
            exact List.prefix_refl _
          · exact (advance_produced produced.valid isSource advanced).changed.directories
        · refine .inr ⟨error, last, way ++ [entry.name], failed.bind_error, clear,
            ⟨found, reached, grown, same⟩, .inl ⟨isListed, fun other alsoReached => ?_⟩⟩
          rw [alsoReached.unique reached, isNone]
      · rw [if_neg isSource]
        refine .inl ⟨0, found, leads_pure 0 found, ⟨?_, listedHere⟩, fun _ isThere => isThere⟩
        refine reached.congr fun other isOther => ?_
        refine ⟨.inl, fun place => place.resolve_right fun below => isSource ?_⟩
        rw [alone other isOther below] at isOther
        exact (mem_sources.mp isOther).1

variable (job) in
/-- A directory that was listed on the way, and the tree it was listed on. -/
structure Opened (way : Location) (listed : FileTree) : Prop where
  lists : job.Lists way
  reached : job.Reaches (· < way) listed
  isDirectory : listed.node? (job.base ++ way) = some .directory

/-- The names in a directory, in order. -/
def names (listed : FileTree) (directory : Location) : List String :=
  (listed.entriesIn directory).map Entry.name

/-- Whatever stands in a directory that was opened has its name in the listing. -/
theorem Opened.mem_names {way : Location} {listed : FileTree} (opened : job.Opened way listed)
    {name : String} {node : Node}
    (isNode : listed.node? (job.base ++ (way ++ [name])) = some node) :
    name ∈ names listed (job.base ++ way) := by
  obtain ⟨targets, produced⟩ := opened.reached.produced
  refine List.mem_map.mpr ⟨⟨name, node == .directory⟩, ?_, rfl⟩
  exact produced.valid.mem_entriesIn.mpr ⟨node, by simpa using isNode, rfl⟩

/-- The way to a source below a directory goes on with one of its names. -/
theorem Opened.mem_names_of_source {way : Location} {listed : FileTree}
    (opened : job.Opened way listed) {name : String} {rest : Location}
    (isSource : way ++ name :: rest ∈ job.sources) : name ∈ names listed (job.base ++ way) := by
  obtain ⟨targets, produced⟩ := opened.reached.produced
  obtain ⟨content, isFile⟩ := opened.reached.source isSource
  by_cases last : rest = []
  · exact opened.mem_names (by simpa [last] using isFile)
  · have further : listed.node? (job.base ++ (way ++ [name]) ++ rest) = some (.file content) := by
      simpa using isFile
    exact opened.mem_names (produced.valid.directory_of_node last further)

/-- Every directory that a walk comes to further down has the first name on the way there in the
    listing of the one that was opened. -/
theorem Opened.mem_names_of_meets {way : Location} {listed : FileTree}
    (opened : job.Opened way listed) {name : String} {rest : Location}
    (meets : job.Meets (way ++ name :: rest)) : name ∈ names listed (job.base ++ way) := by
  rw [List.append_cons] at meets
  exact opened.mem_names (meets.above.isDirectory opened.reached)

/-- A directory that was opened is no source, since sources are files and stay files. -/
theorem Opened.source_ne {way : Location} {listed : FileTree} (opened : job.Opened way listed)
    {other : Location} (isSource : other ∈ job.sources) : other ≠ way := by
  rintro rfl
  obtain ⟨content, isFile⟩ := opened.reached.source isSource
  rw [opened.isDirectory] at isFile
  cases isFile

/-- What a walk has behind it when it is done with some names of a directory. -/
def Behind (way : Location) (seen : List String) (other : Location) : Prop :=
  other < way ∨ ∃ name ∈ seen, way ++ [name] <+: other

/-- With one more name of a directory behind it, a walk has behind it what it had before and all at
    and below this name. -/
theorem behind_concat {way other : Location} {seen : List String} {name : String}
    (same : other < way ++ [name] ↔ Behind way seen other) :
    (other < way ++ [name] ∨ way ++ [name] <+: other) ↔ Behind way (seen ++ [name]) other := by
  rw [same]
  unfold Behind
  simp [or_and_right, exists_or, or_assoc]

/-- What comes before a name of a directory is behind the walk when it is done with the names
    in front of it. -/
theorem Opened.lt_iff_behind {way : Location} {listed : FileTree} (opened : job.Opened way listed)
    {seen pending : List Entry} {entry : Entry}
    (isSplit : listed.entriesIn (job.base ++ way) = seen ++ entry :: pending) {other : Location}
    (named : ∀ name rest, other = way ++ name :: rest → name ∈ names listed (job.base ++ way))
    (different : other ≠ way) :
    other < way ++ [entry.name] ↔ Behind way (seen.map Entry.name) other := by
  obtain ⟨targets, produced⟩ := opened.reached.produced
  have isNames : names listed (job.base ++ way) =
      seen.map Entry.name ++ entry.name :: pending.map Entry.name := by
    simp [names, isSplit]
  have sorted : (names listed (job.base ++ way)).Pairwise (· < ·) :=
    List.pairwise_map.mpr (produced.valid.entriesIn_sorted (job.base ++ way))
  rw [isNames] at sorted named
  exact lt_concat_iff sorted named different

/-- A walk that is done with all names of a directory got past it. -/
theorem Opened.passed {way : Location} {listed : FileTree} (opened : job.Opened way listed)
    {found : FileTree} (reached : job.Reaches (Behind way (names listed (job.base ++ way))) found)
    (clear : ∀ other, job.Meets other → Behind way (names listed (job.base ++ way)) other →
      job.Lists other) : job.Passed way found := by
  constructor
  · refine reached.congr fun other isSource => or_congr_right ⟨?_, ?_⟩
    · rintro ⟨name, -, below⟩
      exact (List.prefix_append way [name]).trans below
    · rintro ⟨rest, rfl⟩
      cases rest with
      | nil => exact absurd (by simp) (opened.source_ne isSource)
      | cons name rest => exact ⟨name, opened.mem_names_of_source isSource, by simp⟩
  · intro other meets place
    obtain before | ⟨rest, rfl⟩ := place
    · exact clear other meets (.inl before)
    · cases rest with
      | nil => simpa using opened.lists
      | cons name rest =>
          exact clear _ meets (.inr ⟨name, opened.mem_names_of_meets meets, by simp⟩)

/-- The entries of a directory are walked through one after another, up to the first that ends the
    walk, if each of them is. -/
theorem walks_entries {way : Location} {listed : FileTree} (opened : job.Opened way listed)
    {step : Entry → Action (StateM FileTree) Nat}
    (walks : ∀ entry ∈ listed.entriesIn (job.base ++ way), ∀ found,
      job.Reaches (· < way ++ [entry.name]) found →
      (∀ location, listed.node? location = some .directory →
        found.node? location = some .directory) →
      (∀ other, job.Meets other → other < way ++ [entry.name] → job.Lists other) →
      job.Walks (step entry) found found (way ++ [entry.name]))
    {seen pending : List Entry} (isSplit : listed.entriesIn (job.base ++ way) = seen ++ pending)
    {found : FileTree} (reached : job.Reaches (Behind way (seen.map Entry.name)) found)
    (kept : ∀ location, listed.node? location = some .directory →
      found.node? location = some .directory)
    (clear : ∀ other, job.Meets other → Behind way (seen.map Entry.name) other → job.Lists other)
    (count : Nat) :
    job.Walks (pending.foldlM (fun compiled entry => do
      return compiled + (← step entry)) count) listed found way := by
  induction pending generalizing seen found count with
  | nil =>
      have isNames : seen.map Entry.name = names listed (job.base ++ way) := by
        simp [names, isSplit]
      rw [isNames] at reached clear
      exact .inl ⟨count, found, leads_pure count found, opened.passed reached clear, kept⟩
  | cons entry pending ih =>
      have sourceOrder : ∀ other ∈ job.sources,
          other < way ++ [entry.name] ↔ Behind way (seen.map Entry.name) other := by
        intro other isSource
        refine opened.lt_iff_behind isSplit ?_ (opened.source_ne isSource)
        rintro name rest rfl
        exact opened.mem_names_of_source isSource
      have clearHere : ∀ other, job.Meets other → other < way ++ [entry.name] →
          job.Lists other := by
        intro other meets less
        by_cases same : other = way
        · exact same ▸ opened.lists
        · refine clear other meets ((opened.lt_iff_behind isSplit ?_ same).mp less)
          rintro name rest rfl
          exact opened.mem_names_of_meets meets
      have isEntry : entry ∈ listed.entriesIn (job.base ++ way) := by
        rw [isSplit]
        simp
      have atEntry := reached.congr fun other isSource => (sourceOrder other isSource).symm
      obtain ⟨inside, next, compiled, passed, keptOn⟩ | ⟨error, last, stop, failed, stopped⟩ :=
        walks entry isEntry found atEntry kept clearHere
      · have added : Leads (do return count + (← step entry)) found (.ok (count + inside)) next :=
          compiled.bind (leads_pure (count + inside) next)
        have splitNext : listed.entriesIn (job.base ++ way) = (seen ++ [entry]) ++ pending := by
          simp [isSplit]
        have reachedNext : job.Reaches (Behind way ((seen ++ [entry]).map Entry.name)) next := by
          rw [List.map_append]
          exact passed.reached.congr fun other isSource =>
            behind_concat (sourceOrder other isSource)
        have clearNext : ∀ other, job.Meets other →
            Behind way ((seen ++ [entry]).map Entry.name) other → job.Lists other := by
          rintro other meets (before | ⟨name, isSeen, below⟩)
          · exact clear other meets (.inl before)
          · rw [List.map_append, List.mem_append] at isSeen
            obtain isSeen | isEntry := isSeen
            · exact clear other meets (.inr ⟨name, isSeen, below⟩)
            · obtain rfl := List.mem_singleton.mp isEntry
              exact passed.listed other meets (.inr below)
        have further := ih splitNext reachedNext
          (fun location isThere => keptOn location (kept location isThere)) clearNext
          (count + inside)
        rw [List.foldlM_cons]
        obtain ⟨total, last, walked, rest⟩ | ⟨error, last, stop, failed, stopped⟩ := further
        · exact .inl ⟨total, last, added.bind walked, rest⟩
        · exact .inr ⟨error, last, stop, added.bind failed, stopped⟩
      · rw [List.foldlM_cons]
        exact .inr ⟨error, last, stop, failed.bind_error.bind_error, stopped⟩

/-- A path with so many names below the root is too long for any host, whatever the names are. -/
theorem not_lists_of_length {way : Location} (long : pathLimit + 2 ≤ way.length) :
    ¬ job.Lists way := by
  have below : way ≠ [] := by
    rintro rfl
    simp at long
  have bytes := (job.root.join ⟨way⟩).length_le_size
  rw [job.root.segments_join below, List.length_append] at bytes
  unfold Lists
  omega

/-- A walk through a directory gets past all that lies below it, or stops there. -/
theorem walks_compileWithin (input : List UInt8) (levels : Nat) {way : Location}
    (enough : pathLimit + 2 ≤ levels + way.length) {found : FileTree} (meets : job.Meets way)
    (reached : job.Reaches (· < way) found)
    (isDirectory : found.node? (job.base ++ way) = some .directory)
    (clear : ∀ other, job.Meets other → other < way → job.Lists other) :
    job.Walks (compileWithin (host input) job.options job.root levels way) found found way := by
  induction levels generalizing way found with
  | zero =>
      obtain ⟨targets, produced⟩ := reached.produced
      have unlisted : ¬ job.Lists way := not_lists_of_length (by simpa using enough)
      exact .inr ⟨_, found, way, leads_throw _ found, clear,
        ⟨found, reached, .refl produced.valid, fun _ => rfl⟩, .inr ⟨meets, unlisted⟩⟩
  | succ levels ih =>
      obtain ⟨targets, produced⟩ := reached.produced
      have isList : ((host input).list (job.root.join ⟨way⟩)).run found =
          (found.list (job.root.join ⟨way⟩), found) := rfl
      rw [produced.valid.list_join (produced.changed.resolve job.resolved.1) isDirectory] at isList
      unfold compileWithin
      by_cases lists : (job.root.join ⟨way⟩).size ≤ pathLimit
      · rw [if_pos lists] at isList
        have opened : job.Opened way found := ⟨lists, reached, isDirectory⟩
        have deeper : ∀ name : String, pathLimit + 2 ≤ levels + (way ++ [name]).length := by
          intro name
          rw [List.length_append, List.length_singleton]
          omega
        have behind : ∀ other, Behind way [] other ↔ other < way := by
          simp [Behind]
        have walked := walks_entries opened
          (fun entry isEntry between atEntry kept clearHere =>
            walks_compileEntry input isEntry reached atEntry clearHere fun isThere =>
              ih (deeper entry.name) (.inside meets reached isThere) atEntry (kept _ isThere)
                clearHere)
          (List.nil_append _).symm (reached.congr fun other _ => (behind other).symm)
          (fun _ isThere => isThere)
          (fun other met place => clear other met ((behind other).mp place)) 0
        obtain ⟨count, last, walked, rest⟩ | ⟨error, last, stop, failed, stopped⟩ := walked
        · exact .inl ⟨count, last, (leads_perform_ok isList).bind walked, rest⟩
        · exact .inr ⟨error, last, stop, (leads_perform_ok isList).bind failed, stopped⟩
      · rw [if_neg lists] at isList
        exact .inr ⟨_, found, way, (leads_perform_error isList).bind_error, clear,
          ⟨found, reached, .refl produced.valid, fun _ => rfl⟩, .inr ⟨meets, lists⟩⟩

/-- A run over a directory gets past everything below it, or stops somewhere. -/
theorem leads_compileDirectory (input : List UInt8) :
    (∃ last, Leads (compileDirectory (host input) job.options job.root) job.tree (.ok ()) last ∧
      job.Passed [] last) ∨
    (∃ error last stop, Leads (compileDirectory (host input) job.options job.root) job.tree
      (.error error) last ∧ job.Stopped stop last) := by
  have noneBefore : ∀ way : Location, ¬ way < [] := fun way => List.not_lt_nil way
  have isDirectory : job.tree.node? (job.base ++ []) = some .directory := by
    simpa using job.resolved.2
  obtain ⟨count, last, walked, passed, -⟩ | ⟨error, last, stop, failed, stopped⟩ :=
    walks_compileWithin input (pathLimit + 2) (Nat.le_add_right _ _) .root
      (.start fun way _ => noneBefore way) isDirectory
      fun way _ before => absurd before (noneBefore way)
  · exact .inl ⟨last, walked.bind (leads_note _ last), passed⟩
  · exact .inr ⟨error, last, stop, failed.bind_error, stopped⟩

/-- A run over a directory does what its walk does, and it has an empty output, for all texts go to
    files. -/
theorem leads_execute (input : List UInt8) {result : Except RunError Unit} {last : FileTree}
    (leads : Leads (compileDirectory (host input) job.options job.root) job.tree result last) :
    Leads (execute (host input) job.options) job.tree (result.map fun _ => "") last := by
  have isDirectory := leads_isDirectory input job.root job.tree
  rw [job.isDirectory] at isDirectory
  unfold execute
  rw [job.asked]
  refine isDirectory.bind ?_
  cases result with
  | ok _ => exact leads.bind (leads_pure "" last)
  | error error => exact leads.bind_error

/-- How a run over a directory ends: it gets past everything and succeeds, or it stops somewhere and
    fails. It prints nothing in either case. -/
theorem run_cases (job : Job) {arguments : List String}
    (asked : Request.ofArguments arguments = .run job.options) (input : List UInt8) :
    ∃ outcome last, (run (host input) arguments).run job.tree = (outcome, last) ∧
      outcome.standardOutput = "" ∧
      (outcome.exit = 0 ∧ job.Passed [] last ∨
        outcome.exit ≠ 0 ∧ ∃ stop, job.Stopped stop last) := by
  obtain ⟨last, walked, passed⟩ | ⟨error, last, stop, failed, stopped⟩ :=
    job.leads_compileDirectory input
  · obtain ⟨outcome, ran, output, succeeds⟩ := run_of_ok asked (leads_execute input walked)
    exact ⟨outcome, last, ran, output, .inl ⟨succeeds, passed⟩⟩
  · obtain ⟨outcome, ran, output, fails⟩ := run_of_error asked (leads_execute input failed)
    exact ⟨outcome, last, ran, output, .inr ⟨fails, stop, stopped⟩⟩

end Job

end Offside.Tool
