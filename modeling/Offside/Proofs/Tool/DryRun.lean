import Offside.Proofs.Tool.CommandLines
import Offside.Proofs.Tool.Traversal

/-!
# Runs that write nothing

A run with the check on reads and compiles everything that its input stands for and leaves all
as it was. It succeeds exactly if everything can be read and compiled, so it succeeds whenever
the same run without the check does, although that one sees its own output on the way.

Without the check, too, nothing is written for a single source before it is compiled.
-/

namespace Offside.Tool

open FileTree

/-! ## What an input stands for -/

namespace FileTree

/-- The contents of the sources that an input stands for: the standard input, a single file, or
    all sources below a directory. -/
inductive Denotes (tree : FileTree) (standard : List UInt8) :
    Option Path → List UInt8 → Prop where
  | standardInput : Denotes tree standard none standard
  | file {path : Path} {content : List UInt8} (single : tree.isDirectory path = false)
      (isRead : tree.readFile path = .ok content) : Denotes tree standard (some path) content
  | below {root : Path} {front : List String} {stem : String} {content : List UInt8}
      (isDirectory : tree.isDirectory root = true) (nonempty : stem ≠ "")
      (isFile : tree.node? (root.location ++ (front ++ [stem ++ ".py"])) =
        some (.file content)) : Denotes tree standard (some root) content

/-- Everything that an input stands for can be read. For a directory this means that all
    directories below it can be listed, too. -/
def CanRead (tree : FileTree) : Option Path → Prop
  | none => True
  | some path =>
      (tree.isDirectory path = false → ∃ content, tree.readFile path = .ok content) ∧
      (tree.isDirectory path = true →
        (∀ way, tree.node? (path.location ++ way) = some .directory →
          ∃ entries, tree.list (path.join ⟨way⟩) = .ok entries) ∧
        (∀ way, tree.IsSource path.location way →
          ∃ content, tree.readFile (path.join ⟨way⟩) = .ok content))

/-- Everything that an input stands for can be read, and every source compiles. -/
structure Compiles (tree : FileTree) (standard : List UInt8) (input : Option Path) : Prop where
  canRead : tree.CanRead input
  compiles : ∀ source, tree.Denotes standard input source →
    ∃ text, (compile source).outcome = .ok text

end FileTree

/-! ## Single sources -/

section Single

variable {tree : FileTree} {options : Options} {input : List UInt8}

/-- A source that does not compile ends the run before anything is written. -/
theorem leads_single_error {origin : Path} {source : List UInt8} {failure : Failure}
    (fails : (compile source).outcome = .error failure) :
    Leads (compileSource origin source >>= deliver (host input) options) tree
      (.error (.compilation origin failure)) tree := by
  have compiled := leads_compileSource origin source tree
  rw [fails] at compiled
  exact compiled.bind_error

/-- A source that compiles is not delivered with the check on. Nothing is printed, and the tree is
    left as it was. -/
theorem leads_single_check {origin : Path} {source : List UInt8} {text : String}
    (compiles : (compile source).outcome = .ok text) (check : options.check = true) :
    Leads (compileSource origin source >>= deliver (host input) options) tree (.ok "") tree := by
  have compiled := leads_compileSource origin source tree
  rw [compiles] at compiled
  refine compiled.bind ?_
  unfold deliver
  rw [if_pos check]
  exact leads_pure "" tree

/-- Without an input, a run does what is done with the content of the standard input. -/
theorem leads_standard (isInput : options.input = none) {result : Except RunError String}
    {after : FileTree}
    (leads : Leads (compileSource standardOrigin input >>= deliver (host input) options) tree
      result after) : Leads (execute (host input) options) tree result after := by
  unfold execute
  rw [isInput]
  exact (leads_lift (host input).standardInput tree).bind leads

/-- With an input that is no directory, a run reads this file and does what is done with its
    content. -/
theorem leads_file (tree : FileTree) (input : List UInt8) {path : Path}
    (isInput : options.input = some path) (single : tree.isDirectory path = false)
    {result : Except RunError String} {after : FileTree}
    (leads : Leads (perform ((host input).readFile path) (.readInput path) >>= fun source =>
      compileSource path source >>= deliver (host input) options) tree result after) :
    Leads (execute (host input) options) tree result after := by
  have noDirectory := leads_isDirectory input path tree
  rw [single] at noDirectory
  unfold execute
  rw [isInput]
  exact noDirectory.bind leads

/-- Where the input is a single source, it cannot be read and nothing happens, or it is compiled
    and delivered. -/
theorem single_cases (tree : FileTree) (options : Options) (input : List UInt8)
    (single : ∀ path, options.input = some path → tree.isDirectory path = false) :
    (¬ tree.CanRead options.input ∧
      ∃ error, Leads (execute (host input) options) tree (.error error) tree) ∨
    (tree.CanRead options.input ∧ ∃ origin source,
      (∀ other, tree.Denotes input options.input other ↔ other = source) ∧
      ∀ result after,
        Leads (compileSource origin source >>= deliver (host input) options) tree result after →
        Leads (execute (host input) options) tree result after) := by
  cases isInput : options.input with
  | none =>
      refine .inr ⟨trivial, standardOrigin, input, fun other => ⟨?_, ?_⟩, fun _ _ =>
        leads_standard isInput⟩
      · rintro ⟨⟩
        rfl
      · rintro rfl
        exact .standardInput
  | some path =>
      have noDirectory := single path isInput
      have read : ((host input).readFile path).run tree = (tree.readFile path, tree) := rfl
      cases isRead : tree.readFile path with
      | error error =>
          rw [isRead] at read
          refine .inl ⟨fun canRead => ?_, _,
            leads_file tree input isInput noDirectory (leads_perform_error read).bind_error⟩
          obtain ⟨content, alsoRead⟩ := canRead.1 noDirectory
          rw [isRead] at alsoRead
          contradiction
      | ok source =>
          rw [isRead] at read
          refine .inr ⟨⟨fun _ => ⟨source, isRead⟩, fun isDirectory => ?_⟩, path, source,
            fun other => ⟨?_, ?_⟩, fun _ _ leads =>
              leads_file tree input isInput noDirectory ((leads_perform_ok read).bind leads)⟩
          · rw [noDirectory] at isDirectory
            contradiction
          · intro denotes
            cases denotes with
            | file _ alsoRead =>
                rw [isRead] at alsoRead
                exact (Except.ok.inj alsoRead).symm
            | below isDirectory =>
                rw [noDirectory] at isDirectory
                contradiction
          · rintro rfl
            exact .file noDirectory isRead

end Single

/-! ## Directories -/

namespace Job

variable {job : Job}

/-- With the check on, no source changes the tree, so a whole row of them does not. The induction is
    on the sources. -/
theorem check_keeps (check : job.options.check = true) {ways : List Location}
    {start found : FileTree} (ran : ways.foldlM job.advance start = some found) :
    found = start := by
  induction ways generalizing start with
  | nil => exact (Option.some.inj ran).symm
  | cons way ways ih =>
      rw [List.foldlM_cons, Option.bind_eq_bind, Option.bind_eq_some_iff] at ran
      obtain ⟨next, advanced, ran⟩ := ran
      obtain ⟨content, text, -, -, isNext⟩ := advance_eq_some_iff.mp advanced
      rw [if_pos check] at isNext
      rw [ih ran, Option.some.inj isNext]

/-- The only tree that a run comes to with the check on is the one it has started from. -/
theorem Reaches.eq_of_check (check : job.options.check = true) {done : Location → Prop}
    {found : FileTree} (reaches : job.Reaches done found) : found = job.tree := by
  obtain ⟨completed, remaining, -, -, -, ran⟩ := reaches
  exact check_keeps check ran

/-- Of sources in order, those that are left after all that come before a location do not come
    before it. -/
theorem not_lt_of_mem_dropWhile {ways : List Location} (sorted : ways.Pairwise (· < ·))
    {way other : Location} (isLater : other ∈ ways.dropWhile (· < way)) : ¬ other < way := by
  induction ways with
  | nil => contradiction
  | cons first ways ih =>
      have ⟨later, rest⟩ := List.pairwise_cons.mp sorted
      by_cases before : first < way
      · rw [List.dropWhile_cons_of_pos (by simpa using before)] at isLater
        exact ih rest isLater
      · rw [List.dropWhile_cons_of_neg (by simpa using before)] at isLater
        obtain rfl | isRest := List.mem_cons.mp isLater
        · exact before
        · exact fun less => before (lt_trans (later other isRest) less)

/-- A walk that got past everything has been in front of every location. -/
theorem Passed.earlier {last : FileTree} (passed : job.Passed [] last) (way : Location) :
    ∃ found, job.Reaches (· < way) found := by
  obtain ⟨completed, remaining, isSplit, -, isNot, ran⟩ := passed.reached
  have noneLeft : remaining = [] :=
    List.eq_nil_iff_forall_not_mem.mpr fun other isRemaining => isNot other isRemaining (by simp)
  rw [noneLeft, List.append_nil] at isSplit
  rw [← isSplit, ← @List.takeWhile_append_dropWhile _ (· < way) job.sources, List.foldlM_append,
    Option.bind_eq_bind, Option.bind_eq_some_iff] at ran
  obtain ⟨found, isFound, -⟩ := ran
  refine ⟨found, _, _, List.takeWhile_append_dropWhile.symm, fun other isEarlier => ?_,
    fun other isLater => not_lt_of_mem_dropWhile sources_sorted isLater, isFound⟩
  simpa using List.all_eq_true.mp List.all_takeWhile other isEarlier

/-- A walk that got past everything has met all directories that were there at the start. -/
theorem Passed.meets {last : FileTree} (passed : job.Passed [] last) {way : Location}
    (isDirectory : job.tree.node? (job.base ++ way) = some .directory) : job.Meets way := by
  induction way using List.reverseRecOn with
  | nil => exact .root
  | append_singleton way name ih =>
      have above : job.tree.node? (job.base ++ way) = some .directory := by
        rw [← List.append_assoc] at isDirectory
        exact job.valid.directory_of_node (List.cons_ne_nil _ _) isDirectory
      obtain ⟨found, reached⟩ := passed.earlier way
      obtain ⟨targets, produced⟩ := reached.produced
      exact .inside (ih above) reached (produced.changed.directories _ isDirectory)

/-- If a walk got past everything, everything can be read and compiles. -/
theorem Passed.compiles {last : FileTree} (passed : job.Passed [] last) (input : List UInt8) :
    job.tree.Compiles input job.options.input := by
  have sourceCompiles : ∀ {way : Location} {content : List UInt8},
      Path.isSource ⟨way⟩ = true → job.tree.node? (job.base ++ way) = some (.file content) →
      (job.root.join ⟨way⟩).size ≤ pathLimit ∧ ∃ text, (compile content).outcome = .ok text := by
    intro way content isSource isFile
    obtain ⟨earlier, next, reached, advanced⟩ :=
      passed.reached.before (mem_sources.mpr ⟨isSource, content, isFile⟩) (by simp)
    obtain ⟨targets, produced⟩ := reached.produced
    obtain ⟨short, text, compiles, -⟩ := advance_content produced isSource isFile advanced
    exact ⟨short, text, compiles⟩
  rw [job.asked]
  constructor
  · refine ⟨fun noDirectory => ?_, fun _ => ⟨fun way isDirectory => ?_, ?_⟩⟩
    · rw [job.isDirectory] at noDirectory
      contradiction
    · have lists := passed.listed way (passed.meets isDirectory) (by simp)
      exact ⟨_, (job.valid.list_join job.resolved.1 isDirectory).trans (if_pos lists)⟩
    · rintro way ⟨isSource, content, isFile⟩
      have short := (sourceCompiles isSource isFile).1
      exact ⟨content, (job.valid.readFile_join job.resolved.1 isFile).trans (if_pos short)⟩
  · intro source denotes
    cases denotes with
    | file noDirectory =>
        rw [job.isDirectory] at noDirectory
        contradiction
    | below _ nonempty isFile =>
        exact (sourceCompiles (Path.isSource_iff.mpr ⟨_, _, rfl, nonempty⟩) isFile).2

/-- With the check on, a walk stops only where something cannot be read or does not compile. -/
theorem Stopped.not_compiles (check : job.options.check = true) {stop : Location}
    {last : FileTree} (stopped : job.Stopped stop last) (input : List UInt8) :
    ¬ job.tree.Compiles input job.options.input := by
  rw [job.asked]
  rintro ⟨canRead, compiles⟩
  obtain ⟨listable, readable⟩ := canRead.2 job.isDirectory
  obtain ⟨found, reached, -⟩ := stopped.reached
  obtain rfl := reached.eq_of_check check
  obtain ⟨isStop, fails⟩ | ⟨meets, unlisted⟩ := stopped.reason
  · obtain ⟨isSource, content, isFile⟩ := mem_sources.mp isStop
    obtain ⟨front, stem, rfl, nonempty⟩ := Path.isSource_iff.mp isSource
    obtain ⟨readContent, isRead⟩ := readable _ ⟨isSource, content, isFile⟩
    have sameContent : content = readContent := by
      have joined := job.valid.readFile_join job.resolved.1 isFile
      rw [isRead] at joined
      split at joined
      · exact (Except.ok.inj joined).symm
      · contradiction
    obtain ⟨text, isText⟩ := compiles content (.below job.isDirectory nonempty isFile)
    have advanced : job.advance job.tree (front ++ [stem ++ ".py"]) = some job.tree :=
      advance_eq_some_iff.mpr ⟨content, text, sameContent ▸ isRead, isText, if_pos check⟩
    rw [fails job.tree reached] at advanced
    contradiction
  · have isDirectory : job.tree.node? (job.base ++ stop) = some .directory := by
      cases meets with
      | root => simpa using job.resolved.2
      | inside above alsoReached isDirectory =>
          rwa [alsoReached.eq_of_check check] at isDirectory
    obtain ⟨entries, isList⟩ := listable stop isDirectory
    rw [job.valid.list_join job.resolved.1 isDirectory] at isList
    split at isList
    next lists => exact unlisted lists
    next => contradiction

end Job

/-! ## All inputs -/

/-- A run that succeeds has read and compiled everything that its input stands for, with the check
    on or off. -/
theorem compiles_of_exit {tree : FileTree} (valid : tree.Valid) {arguments : List String}
    {options : Options} (asked : Request.ofArguments arguments = .run options)
    (input : List UInt8) (succeeds : ((run (host input) arguments).run tree).1.exit = 0) :
    tree.Compiles input options.input := by
  by_cases single : ∀ path, options.input = some path → tree.isDirectory path = false
  · obtain ⟨-, error, failed⟩ | ⟨canRead, origin, source, denotes, leads⟩ :=
      single_cases tree options input single
    · obtain ⟨outcome, ran, -, fails⟩ := run_of_error asked failed
      rw [ran] at succeeds
      exact absurd succeeds fails
    · refine ⟨canRead, fun other isOther => ?_⟩
      rw [(denotes other).mp isOther]
      cases compiled : (compile source).outcome with
      | ok text => exact ⟨text, rfl⟩
      | error failure =>
          obtain ⟨outcome, ran, -, fails⟩ :=
            run_of_error asked (leads _ _ (leads_single_error compiled))
          rw [ran] at succeeds
          exact absurd succeeds fails
  · simp only [not_forall, Bool.not_eq_false] at single
    obtain ⟨root, isInput, isDirectory⟩ := single
    let job : Job := ⟨tree, options, root, valid, isInput, isDirectory⟩
    obtain ⟨outcome, last, ran, -, ⟨-, passed⟩ | ⟨fails, -⟩⟩ := job.run_cases asked input
    · exact passed.compiles input
    · rw [show (run (host input) arguments).run tree = (outcome, last) from ran] at succeeds
      exact absurd succeeds fails

/-- A run with the check on leaves the tree as it is and prints nothing. It succeeds if
    everything can be read and compiles. -/
theorem run_check {tree : FileTree} (valid : tree.Valid) {arguments : List String}
    {options : Options} (asked : Request.ofArguments arguments = .run options)
    (check : options.check = true) (input : List UInt8) :
    ∃ outcome, (run (host input) arguments).run tree = (outcome, tree) ∧
      outcome.standardOutput = "" ∧ (tree.Compiles input options.input → outcome.exit = 0) := by
  by_cases single : ∀ path, options.input = some path → tree.isDirectory path = false
  · obtain ⟨unread, error, failed⟩ | ⟨canRead, origin, source, denotes, leads⟩ :=
      single_cases tree options input single
    · obtain ⟨outcome, ran, output, -⟩ := run_of_error asked failed
      exact ⟨outcome, ran, output, fun compiles => absurd compiles.canRead unread⟩
    · cases compiled : (compile source).outcome with
      | ok text =>
          obtain ⟨outcome, ran, output, succeeds⟩ :=
            run_of_ok asked (leads _ _ (leads_single_check compiled check))
          exact ⟨outcome, ran, output, fun _ => succeeds⟩
      | error failure =>
          obtain ⟨outcome, ran, output, -⟩ :=
            run_of_error asked (leads _ _ (leads_single_error compiled))
          refine ⟨outcome, ran, output, fun compiles => ?_⟩
          obtain ⟨text, isOk⟩ := compiles.compiles source ((denotes source).mpr rfl)
          rw [compiled] at isOk
          cases isOk
  · simp only [not_forall, Bool.not_eq_false] at single
    obtain ⟨root, isInput, isDirectory⟩ := single
    let job : Job := ⟨tree, options, root, valid, isInput, isDirectory⟩
    obtain ⟨outcome, last, ran, output, ⟨succeeds, passed⟩ | ⟨-, stop, stopped⟩⟩ :=
      job.run_cases asked input
    · have same : last = tree := passed.reached.eq_of_check check
      rw [same] at ran
      exact ⟨outcome, ran, output, fun _ => succeeds⟩
    · obtain ⟨found, reached, -, unchanged⟩ := stopped.reached
      have same : last = tree := (unchanged check).trans (reached.eq_of_check check)
      rw [same] at ran
      exact ⟨outcome, ran, output, fun compiles =>
        absurd compiles (stopped.not_compiles check input)⟩

/-- The check is a faithful dry run. With it nothing is written, and the run succeeds exactly if
    the input can be read and all sources that it stands for compile; so it succeeds if the same
    run without it does. With it or not, a single source that does not compile leaves all as it
    was. -/
theorem check_faithful {tree : FileTree} (valid : tree.Valid) (input : List UInt8) :
    (∀ before after options,
      Request.ofArguments (before ++ "--check" :: after) = .run options →
      ∃ outcome,
        (run (host input) (before ++ "--check" :: after)).run tree = (outcome, tree) ∧
        outcome.standardOutput = "" ∧
        (outcome.exit = 0 ↔ tree.CanRead options.input ∧
          ∀ source, tree.Denotes input options.input source →
            ∃ text, (compile source).outcome = .ok text) ∧
        (((run (host input) (before ++ after)).run tree).1.exit = 0 → outcome.exit = 0)) ∧
    (∀ arguments options, Request.ofArguments arguments = .run options →
      (∀ path, options.input = some path → tree.isDirectory path = false) →
      ∀ source failure, tree.Denotes input options.input source →
        (compile source).outcome = .error failure →
        ∃ outcome, (run (host input) arguments).run tree = (outcome, tree) ∧
          outcome.standardOutput = "" ∧ outcome.exit ≠ 0) := by
  constructor
  · intro before after options asked
    obtain ⟨askedWithout, check⟩ := Request.ofArguments_check asked
    obtain ⟨outcome, ran, output, succeeds⟩ := run_check valid asked check input
    refine ⟨outcome, ran, output, ⟨fun exit => ?_, fun compiles => ?_⟩, fun exit => ?_⟩
    · have compiles := compiles_of_exit valid asked input (by rw [ran]; exact exit)
      exact ⟨compiles.canRead, compiles.compiles⟩
    · exact succeeds ⟨compiles.1, compiles.2⟩
    · exact succeeds (compiles_of_exit valid askedWithout input exit)
  · intro arguments options asked single source failure denotes fails
    obtain ⟨unread, error, failed⟩ | ⟨canRead, origin, other, isOther, leads⟩ :=
      single_cases tree options input single
    · exact run_of_error asked failed
    · obtain rfl := (isOther source).mp denotes
      exact run_of_error asked (leads _ _ (leads_single_error fails))

/-- A source that compiles passes the check of its directory, which writes nothing, and is written
    without the check. An empty source does not compile. It fails a check of its directory, and as
    standard input it leaves no output. -/
theorem check_faithful_sources :
    let sound : FileTree := ⟨[(["s"], .directory),
      (["s", "a.py"], .file "import GoType\n".toUTF8.toList)]⟩
    let written : FileTree := ⟨(["out", "a.go"],
      .file "package main\n\nfunc main() \x7b\n\x7d\n".toUTF8.toList) ::
        (["out"], .directory) :: sound.entries⟩
    let tree : FileTree := ⟨[(["s"], .directory), (["s", "a.py"], .file [])]⟩
    ((run (host []) ["-i", "s", "-o", "out"]).run sound = (⟨0, "", ""⟩, written) ∧
      ∃ outcome, (run (host []) ["-i", "s", "-o", "out", "--check"]).run sound =
          (outcome, sound) ∧
        outcome.standardOutput = "" ∧ outcome.exit = 0) ∧
    (∃ outcome, (run (host []) ["-i", "s", "--check"]).run tree = (outcome, tree) ∧
      outcome.standardOutput = "" ∧ outcome.exit ≠ 0) ∧
    ∃ outcome, (run (host []) ["-o", "out/b.go"]).run tree = (outcome, tree) ∧
      outcome.standardOutput = "" ∧ outcome.exit ≠ 0 := by
  intro sound written tree
  have soundValid : sound.Valid := by constructor <;> decide
  have valid : tree.Valid := by constructor <;> decide
  have writes : (run (host []) ["-i", "s", "-o", "out"]).run sound = (⟨0, "", ""⟩, written) :=
    Prod.ext (by decide +kernel) (by decide +kernel)
  obtain ⟨failure, fails⟩ : ∃ failure, (compile []).outcome = .error failure := ⟨_, rfl⟩
  obtain ⟨checked, single⟩ := check_faithful valid []
  refine ⟨⟨writes, ?_⟩, ?_, ?_⟩
  · obtain ⟨outcome, ran, output, -, passes⟩ :=
      (check_faithful soundValid []).1 ["-i", "s", "-o", "out"] []
        ⟨some (.ofText "s"), some (.ofText "out"), true, 0⟩ (by decide)
    exact ⟨outcome, ran, output, passes (congrArg (fun result => result.1.exit) writes)⟩
  · obtain ⟨outcome, ran, output, exit, -⟩ :=
      checked ["-i", "s"] [] ⟨some (.ofText "s"), none, true, 0⟩ (by decide)
    refine ⟨outcome, ran, output, fun succeeds => ?_⟩
    have isFile : tree.node? ((Path.ofText "s").location ++ ([] ++ ["a" ++ ".py"])) =
        some (.file []) := by decide
    obtain ⟨text, compiles⟩ :=
      (exit.mp succeeds).2 [] (.below (by decide) (by decide) isFile)
    rw [fails] at compiles
    cases compiles
  · exact single ["-o", "out/b.go"] ⟨none, some (.ofText "out/b.go"), false, 0⟩ (by decide)
      (by simp) [] failure .standardInput fails

end Offside.Tool
