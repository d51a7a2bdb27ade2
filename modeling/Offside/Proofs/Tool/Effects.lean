import Offside.Proofs.Tool.Trees
import Offside.Proofs.Traced
import Offside.Tool.Run

/-!
# What actions do to a tree

The parts of a run are composed of reading, compiling and writing. Each of them has one result
and leaves one tree, whatever was noted before. Creating directories adds directories only, and
writing a file also puts that file in its place; when it is refused no file has changed.
-/

namespace Offside.Tool

variable {α β : Type}

/-! ## Results of actions -/

/-- What an action comes to on a tree, and the tree it leaves, whatever was noted before. -/
def Leads (action : Action (StateM FileTree) α) (before : FileTree)
    (result : Except RunError α) (after : FileTree) : Prop :=
  ∀ notices, ∃ more, (action.run.run notices).run before = ((result, more), after)

/-- Returning a value comes to this value and leaves the tree. -/
theorem leads_pure (value : α) (tree : FileTree) :
    Leads (pure value) tree (.ok value) tree :=
  fun notices => ⟨notices, rfl⟩

/-- Giving up comes to the error and leaves the tree, so whatever was written before stays
    written. -/
theorem leads_throw (error : RunError) (tree : FileTree) :
    Leads (throw error : Action (StateM FileTree) α) tree (.error error) tree :=
  fun notices => ⟨notices, rfl⟩

/-- Noting something leaves the tree, and what is noted has no part in the result. -/
theorem leads_note (notice : Notice) (tree : FileTree) :
    Leads (note notice) tree (.ok ()) tree :=
  fun notices => ⟨notices ++ [notice], rfl⟩

/-- An operation of the host notes nothing and does not fail by itself. -/
theorem leads_lift (operation : StateM FileTree α) (tree : FileTree) :
    Leads (operation : Action (StateM FileTree) α) tree (.ok (operation.run tree).1)
      (operation.run tree).2 :=
  fun notices => ⟨notices, rfl⟩

/-- Asking for a directory comes to what the tree says and leaves it. -/
theorem leads_isDirectory (input : List UInt8) (path : Path) (tree : FileTree) :
    Leads ((FileTree.host input).isDirectory path : Action (StateM FileTree) Bool) tree
      (.ok (tree.isDirectory path)) tree :=
  leads_lift ((FileTree.host input).isDirectory path) tree

/-- If a first action comes to a value and leaves a tree, the sequence comes to what the second does
    with this value on this tree. -/
theorem Leads.bind {action : Action (StateM FileTree) α} {next : α → Action (StateM FileTree) β}
    {before between after : FileTree} {value : α} {result : Except RunError β}
    (first : Leads action before (.ok value) between)
    (second : Leads (next value) between result after) :
    Leads (action >>= next) before result after := by
  intro notices
  obtain ⟨noted, isFirst⟩ := first notices
  obtain ⟨more, isSecond⟩ := second noted
  refine ⟨more, ?_⟩
  simp only [ExceptT.run_bind, StateT.run_bind, isFirst]
  exact isSecond

/-- If a first action comes to an error, the sequence does, and the second action has no effect. -/
theorem Leads.bind_error {action : Action (StateM FileTree) α}
    {next : α → Action (StateM FileTree) β} {before after : FileTree} {error : RunError}
    (first : Leads action before (.error error) after) :
    Leads (action >>= next) before (.error error) after := by
  intro notices
  obtain ⟨noted, isFirst⟩ := first notices
  refine ⟨noted, ?_⟩
  simp only [ExceptT.run_bind, StateT.run_bind, isFirst]
  rfl

/-- An operation of the host that succeeds comes to its value and leaves the tree that the host
    does. -/
theorem leads_perform_ok {operation : StateM FileTree (Except HostError α)}
    {refused : HostError → RunError} {before after : FileTree} {value : α}
    (performed : operation.run before = (.ok value, after)) :
    Leads (perform operation refused) before (.ok value) after := by
  have lifted := leads_lift operation before
  rw [performed] at lifted
  exact lifted.bind (leads_pure value after)

/-- An operation of the host that is refused comes to the error that the run has for it, and leaves
    the tree that the host does. -/
theorem leads_perform_error {operation : StateM FileTree (Except HostError α)}
    {refused : HostError → RunError} {before after : FileTree} {error : HostError}
    (performed : operation.run before = (.error error, after)) :
    Leads (perform operation refused) before (.error (refused error)) after := by
  have lifted := leads_lift operation before
  rw [performed] at lifted
  exact lifted.bind (leads_throw (refused error) after)

/-- Noting something for every item of a list leaves the tree, by induction on the list. -/
theorem leads_notes {ι : Type} (items : List ι) (notice : ι → Notice) (tree : FileTree) :
    Leads (items.forM fun item => note (notice item)) tree (.ok ()) tree := by
  induction items with
  | nil => exact leads_pure () tree
  | cons item items ih => exact (leads_note (notice item) tree).bind ih

/-- Compiling a source only notes what it does. It comes to the text or to the failure, with the
    path that the source is from. -/
theorem leads_compileSource (origin : Path) (source : List UInt8) (tree : FileTree) :
    Leads (compileSource origin source) tree
      ((compile source).outcome.mapError (RunError.compilation origin)) tree := by
  refine (leads_note (.compiling origin source.length) tree).bind ?_
  unfold Traced.outcome
  cases ran : (compile source).run #[] with
  | ok text events =>
      exact (leads_notes events.toList .compiler tree).bind (leads_pure text tree)
  | error failure events =>
      exact (leads_notes events.toList .compiler tree).bind (leads_throw _ tree)

section Runs

variable {arguments : List String} {options : Options} {input : List UInt8}
  {before after : FileTree}

/-- A run does what its options ask for, and its outcome is made of the result and of all that was
    noted. -/
theorem run_of_leads (asked : Request.ofArguments arguments = .run options)
    {result : Except RunError String}
    (leads : Leads (execute (FileTree.host input) options) before result after) :
    ∃ notices, (run (FileTree.host input) arguments).run before =
      (Outcome.ofResult options.verbosity result notices, after) := by
  obtain ⟨notices, ran⟩ := leads []
  refine ⟨notices, ?_⟩
  unfold run
  rw [asked]
  simp only [StateT.run_bind]
  rw [ran]
  rfl

/-- A run in which all goes well prints the output and succeeds. -/
theorem run_of_ok (asked : Request.ofArguments arguments = .run options) {output : String}
    (leads : Leads (execute (FileTree.host input) options) before (.ok output) after) :
    ∃ outcome, (run (FileTree.host input) arguments).run before = (outcome, after) ∧
      outcome.standardOutput = output ∧ outcome.exit = 0 := by
  obtain ⟨notices, ran⟩ := run_of_leads asked leads
  exact ⟨_, ran, rfl, rfl⟩

/-- A run in which something goes wrong prints nothing and does not succeed. -/
theorem run_of_error (asked : Request.ofArguments arguments = .run options) {error : RunError}
    (leads : Leads (execute (FileTree.host input) options) before (.error error) after) :
    ∃ outcome, (run (FileTree.host input) arguments).run before = (outcome, after) ∧
      outcome.standardOutput = "" ∧ outcome.exit ≠ 0 := by
  obtain ⟨notices, ran⟩ := run_of_leads asked leads
  exact ⟨_, ran, rfl, Nat.one_ne_zero⟩

end Runs

namespace FileTree

/-! ## Directories -/

/-- The last part of a path is a proper name, or stands for a directory anyway. -/
theorem lastPart_proper {path : Path} {way : List String} {name : String} {slashed : Bool}
    (part : lastPart path = (way, name, slashed)) (named : isDirectoryName name = false) :
    ProperName name := by
  have isName : (path.segments.reverse.dropWhile (· == "")).reverse.getLastD "." = name :=
    congrArg (·.2.1) part
  rw [List.getLastD_eq_getLast?, List.getLast?_reverse] at isName
  have nonempty : name ≠ "" := by
    rintro rfl
    cases found : (path.segments.reverse.dropWhile (· == "")).head? with
    | none => simp [found] at isName
    | some last =>
        have stops := List.head?_dropWhile_not (· == "") path.segments.reverse
        rw [found] at isName stops
        simp_all
  simp_all [ProperName, Path.isTrivial, isDirectoryName]

/-- Putting a directory where nothing stood changes no file and takes no directory away. -/
theorem Changed.put_directory {tree : FileTree} {location : Location} (below : location ≠ [])
    (missing : tree.node? location = none) : Changed [] tree (tree.put location .directory) := by
  have elsewhere : ∀ other, other ≠ location →
      (tree.put location .directory).node? other = tree.node? other :=
    fun other different => node?_put_of_ne _ _ _ _ different
  constructor
  · intro other found
    rw [elsewhere other (by rintro rfl; simp [missing] at found), found]
  · intro other _ content
    by_cases same : other = location
    · rw [same, node?_put_self _ _ _ below, missing]
      simp
    · rw [elsewhere other same]
  · simp

/-- A file that was put where no directory stood changes nothing but the file in this place. -/
theorem Changed.put_file {tree : FileTree} {location : Location} (below : location ≠ [])
    (free : tree.node? location ≠ some .directory) (content : List UInt8) :
    Changed [location] tree (tree.put location (.file content)) := by
  have elsewhere : ∀ other, other ≠ location →
      (tree.put location (.file content)).node? other = tree.node? other :=
    fun other different => node?_put_of_ne _ _ _ _ different
  constructor
  · intro other found
    rw [elsewhere other (by rintro rfl; exact free found), found]
  · intro other untouched _
    rw [elsewhere other (by simpa using untouched)]
  · intro other touched
    obtain rfl := List.mem_singleton.mp touched
    exact ⟨free, content, node?_put_self _ _ _ below⟩

/-- Creating a directory changes no file and keeps the tree well formed. -/
theorem createDirectory_ok {tree after : FileTree} (valid : tree.Valid) {path : Path}
    (created : tree.createDirectory path = .ok after) : Changed [] tree after ∧ after.Valid := by
  rcases part : lastPart path with ⟨way, name, slashed⟩
  simp only [createDirectory, part, ok_bind_iff] at created
  obtain ⟨_, -, directory, resolved, created⟩ := created
  have isDirectory := (resolveDirectory_ok resolved).2
  split at created
  next => contradiction
  next named =>
    have proper := lastPart_proper part (by simpa using named)
    obtain ⟨node, found, created⟩ := ok_bind_iff.mp created
    cases node with
    | some node => contradiction
    | none =>
        cases created
        have missing := entry?_none found
        exact ⟨.put_directory (by simp) missing,
          valid.put isDirectory proper (by simp [missing]) .directory⟩

/-- The tree after directories were created: it has some more, and nothing else has changed. -/
structure Grown (before after : FileTree) : Prop where
  changed : Changed [] before after
  valid : after.Valid

/-- A tree has grown if nothing was done to it. -/
theorem Grown.refl {tree : FileTree} (valid : tree.Valid) : Grown tree tree :=
  ⟨.refl tree, valid⟩

/-- A tree that has grown and then has grown again has grown as a whole. -/
theorem Grown.trans {before between after : FileTree} (early : Grown before between)
    (late : Grown between after) : Grown before after :=
  ⟨early.changed.trans late.changed, late.valid⟩

/-- A directory is ensured by creating it. If this is refused, it is enough that there is one. -/
theorem ensureDirectory_run (input : List UInt8) (path : Path) (tree : FileTree) :
    ((host input).ensureDirectory path).run tree =
      match tree.createDirectory path with
      | .ok after => (.ok (), after)
      | .error error => (if tree.isDirectory path then .ok () else .error error, tree) := by
  have updated : ((host input).createDirectory path).run tree =
      match tree.createDirectory path with
      | .ok after => (.ok (), after)
      | .error error => (.error error, tree) := rfl
  simp only [Host.ensureDirectory, StateT.run_bind, updated]
  cases tree.createDirectory path with
  | ok after => rfl
  | error error => rfl

/-- Ensuring a directory lets the tree grow, whether the host refuses it or not. -/
theorem ensureDirectory_grown {tree : FileTree} (valid : tree.Valid) (input : List UInt8)
    (path : Path) : Grown tree (((host input).ensureDirectory path).run tree).2 := by
  rw [ensureDirectory_run]
  cases created : tree.createDirectory path with
  | ok after =>
      have ⟨changed, stillValid⟩ := createDirectory_ok valid created
      exact ⟨changed, stillValid⟩
  | error error => exact .refl valid

/-- Directories are created by ensuring the last one first. Only if something is missing on the way
    there, the ones above are created and it is tried again. -/
theorem createDirectories_run (input : List UInt8) (path : Path) (tree : FileTree) :
    ((host input).createDirectories path).run tree =
      match ((host input).ensureDirectory path).run tree with
      | (.ok _, after) => (.ok (), after)
      | (.error error, after) =>
          match path.parent? with
          | none => (.error error, after)
          | some parent =>
              if error.code ≠ HostError.notFound.code then (.error error, after)
              else
                match ((host input).createDirectories parent).run after with
                | (.ok _, made) => ((host input).ensureDirectory path).run made
                | (.error failed, made) => (.error failed, made) := by
  rw [Host.createDirectories]
  simp only [StateT.run_bind]
  rcases ((host input).ensureDirectory path).run tree with ⟨result, after⟩
  cases result with
  | ok _ => rfl
  | error error =>
      change StateT.run _ after = _
      simp only
      split
      next missing =>
        rw [missing]
        rfl
      next parent isParent =>
        rw [isParent]
        simp only
        split
        next => rfl
        next =>
          rw [StateT.run_bind]
          rcases ((host input).createDirectories parent).run after with ⟨result, made⟩
          cases result with
          | ok _ => rfl
          | error failed => rfl

/-- Creating directories lets the tree grow, by strong induction on the number of names in the
    path. -/
theorem createDirectories_grown {tree : FileTree} (valid : tree.Valid) (input : List UInt8)
    (path : Path) : Grown tree (((host input).createDirectories path).run tree).2 := by
  -- The parent's path is shorter, so the number of segments bounds the recursion.
  induction bound : path.segments.length using Nat.strongRecOn generalizing path tree with
  | ind count ih =>
    have first := ensureDirectory_grown valid input path
    rw [createDirectories_run]
    rcases ensured : ((host input).ensureDirectory path).run tree with ⟨result, after⟩
    rw [ensured] at first
    cases result with
    | ok _ => exact first
    | error error =>
      simp only
      split
      next => exact first
      next parent isParent =>
        split
        next => exact first
        next =>
          have shorter := Path.length_parent_lt path parent isParent
          have above := ih _ (bound ▸ shorter) first.valid parent rfl
          rcases created : ((host input).createDirectories parent).run after with ⟨result, made⟩
          rw [created] at above
          cases result with
          | ok _ => exact (first.trans above).trans (ensureDirectory_grown above.valid input path)
          | error failed => exact first.trans above

/-- The standard input has no part in creating directories. The induction is on the number of names
    in the path again. -/
theorem createDirectories_input (input : List UInt8) (path : Path) (tree : FileTree) :
    ((host input).createDirectories path).run tree =
      ((host []).createDirectories path).run tree := by
  induction bound : path.segments.length using Nat.strongRecOn generalizing path tree with
  | ind count ih =>
    have ensured : ∀ tree, ((host input).ensureDirectory path).run tree =
        ((host []).ensureDirectory path).run tree := fun tree => by
      rw [ensureDirectory_run, ensureDirectory_run]
    rw [createDirectories_run, createDirectories_run, ensured]
    rcases ((host []).ensureDirectory path).run tree with ⟨result, after⟩
    cases result with
    | ok _ => rfl
    | error error =>
      simp only
      split
      next => rfl
      next parent isParent =>
        rw [ih _ (bound ▸ Path.length_parent_lt path parent isParent) parent after rfl]
        simp only [ensured]

/-! ## Files -/

/-- A tree in which the directories that a path needs were created, if that was possible. -/
def prepared (tree : FileTree) (path : Path) : Except HostError Unit × FileTree :=
  match path.parent? with
  | none => (.ok (), tree)
  | some parent => ((host []).createDirectories parent).run tree

/-- The tree after a text was written to a path, and before that the directories which the path
    needs. There is none if the host refuses any of this. -/
def written (tree : FileTree) (path : Path) (text : String) : Option FileTree :=
  match tree.prepared path with
  | (.ok _, ready) => (ready.writeFile path text.toUTF8.toList).toOption
  | (.error _, _) => none

/-- Preparing a path lets the tree grow, for it only creates the directories that the path needs. -/
theorem prepared_grown {tree : FileTree} (valid : tree.Valid) (path : Path) :
    Grown tree (tree.prepared path).2 := by
  unfold prepared
  split
  · exact .refl valid
  · exact createDirectories_grown valid [] _

/-- Writing a file comes to what the tree makes of it, and if it is refused, the tree is left. -/
theorem leads_writeFile (tree : FileTree) (input : List UInt8) (path : Path)
    (content : List UInt8) :
    Leads (perform ((host input).writeFile path content) (.writeOutput path)) tree
      (((tree.writeFile path content).map fun _ => ()).mapError (.writeOutput path))
      ((tree.writeFile path content).toOption.getD tree) := by
  have updated : ((host input).writeFile path content).run tree =
      match tree.writeFile path content with
      | .ok after => (.ok (), after)
      | .error error => (.error error, tree) := rfl
  cases wrote : tree.writeFile path content with
  | ok after =>
      rw [wrote] at updated
      exact leads_perform_ok updated
  | error error =>
      rw [wrote] at updated
      exact leads_perform_error updated

/-- Creating the directories that a path needs comes to what preparing the path does. -/
theorem leads_prepare {tree ready : FileTree} {path : Path} {result : Except HostError Unit}
    (isPrepared : tree.prepared path = (result, ready)) (input : List UInt8) :
    Leads (match path.parent? with
      | none => pure ()
      | some parent => perform ((host input).createDirectories parent) (.createDirectory parent))
      tree (result.mapError (.createDirectory (path.parent?.getD path))) ready := by
  unfold prepared at isPrepared
  cases isParent : path.parent? with
  | none =>
      rw [isParent] at isPrepared
      cases isPrepared
      exact leads_pure () tree
  | some parent =>
      rw [isParent] at isPrepared
      simp only [← createDirectories_input input] at isPrepared
      cases result with
      | ok _ => exact leads_perform_ok isPrepared
      | error error => exact leads_perform_error isPrepared

/-- Writing either leaves the written tree, or fails and has at most created directories. -/
theorem leads_writeOutput {tree : FileTree} (valid : tree.Valid) (input : List UInt8)
    (path : Path) (text : String) :
    (∃ after, Leads (writeOutput (host input) path text) tree (.ok ()) after ∧
      tree.written path text = some after) ∨
    (∃ error after, Leads (writeOutput (host input) path text) tree (.error error) after ∧
      tree.written path text = none ∧ Grown tree after) := by
  have inSteps : writeOutput (host input) path text =
      (match path.parent? with
        | none => pure ()
        | some parent =>
            perform ((host input).createDirectories parent) (.createDirectory parent)) >>=
      fun _ => perform ((host input).writeFile path text.toUTF8.toList) (.writeOutput path) >>=
      fun _ => note (.wrote path text.toUTF8.toList.length) := by
    unfold writeOutput
    cases path.parent? <;> rfl
  have grown := prepared_grown valid path
  rcases isPrepared : tree.prepared path with ⟨result, ready⟩
  rw [isPrepared] at grown
  have made := leads_prepare isPrepared input
  have wrote := leads_writeFile ready input path text.toUTF8.toList
  rw [inSteps]
  unfold written
  rw [isPrepared]
  cases result with
  | error error => exact .inr ⟨_, ready, made.bind_error, rfl, grown⟩
  | ok _ =>
      simp only
      cases isWritten : ready.writeFile path text.toUTF8.toList with
      | ok after =>
          rw [isWritten] at wrote
          exact .inl ⟨after, made.bind (wrote.bind (leads_note _ after)), rfl⟩
      | error error =>
          rw [isWritten] at wrote
          exact .inr ⟨_, ready, made.bind wrote.bind_error, rfl, grown⟩

/-- The last part of a path that ends in a name is that name. -/
theorem lastPart_concat (way : List String) {name : String} (named : name ≠ "") :
    lastPart ⟨way ++ [name]⟩ = (way, name, false) := by
  simp [lastPart, named]

/-- A file that was written is found where its path leads, and can be read there. -/
theorem writeFile_ok {tree after : FileTree} (valid : tree.Valid) {way : List String}
    {name : String} (named : name ≠ "") {content : List UInt8}
    (wrote : tree.writeFile ⟨way ++ [name]⟩ content = .ok after) :
    ProperName name ∧ after.Valid ∧ Changed [Location.descend [] way ++ [name]] tree after ∧
      after.readFile ⟨way ++ [name]⟩ = .ok content := by
  have part := lastPart_concat way named
  simp only [writeFile, part, ok_bind_iff, checkSize_ok_iff] at wrote
  obtain ⟨_, short, directory, resolved, wrote⟩ := wrote
  obtain ⟨followed, isDirectory⟩ := resolveDirectory_ok resolved
  split at wrote
  next => contradiction
  next named =>
    have proper := lastPart_proper part (by simpa using named)
    obtain ⟨node, found, wrote⟩ := ok_bind_iff.mp wrote
    have replaced : tree.node? (directory ++ [name]) ≠ some .directory ∧
        after = tree.put (directory ++ [name]) (.file content) := by
      match node with
      | none =>
          cases wrote
          simp [entry?_none found]
      | some (.file old) =>
          cases wrote
          simp [entry?_some_iff.mp found]
      | some .directory => contradiction
    obtain ⟨free, rfl⟩ := replaced
    have changed := Changed.put_file (by simp) free content
    rw [← follow_eq_descend followed]
    refine ⟨proper, valid.put isDirectory proper free _, changed, ?_⟩
    have isFile := node?_put_self tree (directory ++ [name]) (.file content) (by simp)
    refine readFile_ok_iff.mpr ⟨_, resolve_ok_iff.mpr ⟨short, ?_⟩, isFile⟩
    rw [follow_append, changed.follow followed]
    simp [Except.bind, follow, changed.directories _ isDirectory, proper.1, proper.2,
      entry?_some_iff.mpr isFile]

/-- A text that was written is found where its path leads, and can be read there. -/
theorem written_ok {tree after : FileTree} (valid : tree.Valid) {way : List String}
    {name : String} (named : name ≠ "") {text : String}
    (wrote : tree.written ⟨way ++ [name]⟩ text = some after) :
    ProperName name ∧ after.Valid ∧ Changed [Location.descend [] way ++ [name]] tree after ∧
      after.readFile ⟨way ++ [name]⟩ = .ok text.toUTF8.toList := by
  have grown := prepared_grown valid ⟨way ++ [name]⟩
  unfold written at wrote
  split at wrote
  next ready isReady =>
    rw [isReady] at grown
    cases isWritten : ready.writeFile ⟨way ++ [name]⟩ text.toUTF8.toList with
    | error error =>
        rw [isWritten] at wrote
        contradiction
    | ok last =>
        rw [isWritten] at wrote
        obtain rfl := Option.some.inj wrote
        obtain ⟨proper, stillValid, changed, isRead⟩ := writeFile_ok grown.valid named isWritten
        exact ⟨proper, stillValid, grown.changed.trans changed, isRead⟩
  next => contradiction

end FileTree

end Offside.Tool
