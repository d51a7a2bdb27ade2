import Offside.Proofs.Layout.Depth
import Offside.Proofs.Syntax.Completeness
import Offside.Proofs.Syntax.Hoisting
import Offside.Proofs.Typing.Stack

/-!
# The tour of a walk

That each entry of a record is balanced would hold of an empty record, too. Which entries there
are is said here, by the tree alone. The tour of a program has a waypoint on the way into every
statement and every block and one on the way out, and where it comes to a placeholder, it goes
through the body that the placeholder stands for.

A walk that is accepted has met all waypoints of the tour, in their order. One that fails has met
those at the beginning, up to the fault. In a parsed program every body has exactly one
placeholder, so the tour goes past each statement of the program once, wherever it stands.
-/

namespace Offside

/-! ## Waypoints -/

/-- What an entry of a record is written down for, without the places of the walk. -/
inductive Waypoint where
  | came
  | passed (statement : Statement)
  | left
  deriving Repr

/-- The waypoint of an entry. A frame that had to be made is none. -/
def Entry.waypoint? : Entry → Option Waypoint
  | came _ => some .came
  | refilled => none
  | passed statement _ _ => some (.passed statement)
  | left _ _ => some .left

/-- The waypoints of a record, in order. -/
def waypointsIn (record : List Entry) : List Waypoint :=
  record.filterMap Entry.waypoint?

/-- The statement that the walk has gone past at a waypoint. -/
def Waypoint.statement? : Waypoint → Option Statement
  | came => none
  | passed statement => some statement
  | left => none

/-- The statements that were gone past, in order. -/
def passedIn (waypoints : List Waypoint) : List Statement :=
  waypoints.filterMap Waypoint.statement?

section Tours

/-! `hoisted` gives the tour of the body that a placeholder stands for. -/

variable (hoisted : Nat → List Waypoint)

mutual

/-- The waypoints inside a statement. -/
def Statement.tour : Statement → List Waypoint
  | .forRange _ _ _ _ body => Block.tour body
  | .whileLoop _ _ body => Block.tour body
  | .ifChain branches otherwise =>
      Branch.tourAll branches ++
        match otherwise with
        | none => []
        | some body => Block.tour body
  | .hoisted index _ => hoisted index
  | _ => []

/-- The waypoints of a block, with those inside it. -/
def Block.tour : Block Statement → List Waypoint
  | ⟨_, statements⟩ => .came :: (Statement.tourAll statements ++ [.left])

/-- The waypoints of the blocks of all branches. -/
def Branch.tourAll : List (Branch Statement) → List Waypoint
  | [] => []
  | ⟨_, _, body⟩ :: branches => Block.tour body ++ Branch.tourAll branches

/-- The waypoints of several statements, with those inside them. -/
def Statement.tourAll : List Statement → List Waypoint
  | [] => []
  | statement :: statements =>
      .came :: (statement.tour ++ .passed statement :: Statement.tourAll statements)

end

end Tours

/-- The tour of the body of a function, with at most `bound` bodies inside one another. -/
def Definition.tour (functions : List Definition) : Nat → Nat → List Waypoint
  | 0, _ => []
  | bound + 1, index =>
      match functions[index]? with
      | none => []
      | some definition => definition.body.tour (Definition.tour functions bound)

/-- The tour of a program. -/
def Program.tour (program : Program) : List Waypoint :=
  Statement.tourAll (Definition.tour program.functions program.definitionBound) program.body

/-- The waypoints of two records in a row are those of the first and then those of the second. -/
theorem waypointsIn_append (record more : List Entry) :
    waypointsIn (record ++ more) = waypointsIn record ++ waypointsIn more :=
  List.filterMap_append

/-! ## Walks that meet their waypoints -/

namespace Walk

variable {α β : Type}

/-- After the waypoints `before` a walk has met all of the given waypoints, or some of them at the
    beginning if it has failed. -/
inductive Met (before waypoints : List Waypoint) : EStateM.Result Failure Walker α → Prop
  | ok {value : α} {after : Walker} (all : waypointsIn after.record = before ++ waypoints) :
      Met before waypoints (.ok value after)
  | error {failure : Failure} {after : Walker} {met : List Waypoint} (early : met <+: waypoints)
      (some : waypointsIn after.record = before ++ met) :
      Met before waypoints (.error failure after)

/-- From wherever it starts, the walk meets these waypoints. -/
def Meets (walk : Walk α) (waypoints : List Waypoint) : Prop :=
  ∀ walker, Met (waypointsIn walker.record) waypoints (walk walker)

variable {walk : Walk α} {waypoints more : List Waypoint}

/-- A walk that does nothing meets no waypoint. -/
theorem meets_pure (value : α) : Meets (pure value) [] :=
  fun _ => .ok (List.append_nil _).symm

/-- One walk after another meets the waypoints of both, and if the first one fails, some of its own,
    which are at the beginning of the whole. -/
theorem Meets.bind {next : α → Walk β} (first : Meets walk waypoints)
    (second : ∀ value, Meets (next value) more) : Meets (walk >>= next) (waypoints ++ more) := by
  intro walker
  have met := first walker
  change Met _ _ (EStateM.bind walk next walker)
  rw [run_bind]
  generalize walk walker = result at met
  cases met with
  | @ok value middle all =>
      have later := second value middle
      dsimp only
      rw [all] at later
      generalize next value middle = result at later
      cases later with
      | ok further => exact .ok (further.trans (List.append_assoc _ _ _))
      | error early further =>
          exact .error ((List.prefix_append_right_inj _).mpr early)
            (further.trans (List.append_assoc _ _ _))
  | error early further => exact .error (early.trans (List.prefix_append _ _)) further

/-- What comes before a walk and meets no waypoint, such as a check. -/
theorem Meets.after {next : α → Walk β} (first : Meets walk [])
    (second : ∀ value, Meets (next value) waypoints) : Meets (walk >>= next) waypoints :=
  first.bind second

/-- What comes after a walk and meets no waypoint leaves the waypoints as they are. -/
theorem Meets.before {next : α → Walk β} (first : Meets walk waypoints)
    (second : ∀ value, Meets (next value) []) : Meets (walk >>= next) waypoints := by
  have both := first.bind second
  rwa [List.append_nil] at both

/-- A change that leaves the record alone, up to entries that are no waypoints, meets none. -/
theorem meets_modify {change : Walker → Walker}
    (keeps : ∀ walker, waypointsIn (change walker).record = waypointsIn walker.record) :
    Meets (modify change) [] :=
  fun walker => .ok ((keeps walker).trans (List.append_nil _).symm)

/-- What a walk writes down is a waypoint that it meets. The entry may say where the walk stands. -/
theorem meets_note (entry : Walker → Entry) {waypoint : Waypoint}
    (isWaypoint : ∀ walker, (entry walker).waypoint? = some waypoint) :
    Meets (modify fun walker => walker.note (entry walker)) [waypoint] := by
  refine fun walker => .ok ?_
  change waypointsIn (walker.record ++ [entry walker]) = _
  rw [waypointsIn_append]
  simp [waypointsIn, isWaypoint]

/-- Looking at the place meets no waypoint, whether it is accepted or not. -/
theorem meets_look (check : Environment → Check α) : Meets (look check) [] := by
  intro walker
  unfold look
  cases check walker.scene.environment ⟨walker.scene.trail, walker.scene.inFunction⟩
    walker.events with
  | ok value after => exact .ok (List.append_nil _).symm
  | error failure after => exact .error List.prefix_rfl (List.append_nil _).symm

/-- Whatever is put right at the end of a walk, it has met the waypoints that it has met before. -/
theorem Meets.finally (meets : Meets walk waypoints) {close : Walker → Walker}
    (keeps : ∀ walker, waypointsIn (close walker).record = waypointsIn walker.record) :
    Meets (try walk finally modify close) waypoints := by
  intro walker
  have met := meets walker
  rw [run_finally]
  generalize walk walker = result at met
  cases met with
  | ok all => exact .ok ((keeps _).trans all)
  | error early some => exact .error early ((keeps _).trans some)

/-- A step of the trail is no waypoint, so a walk meets the same ones in a step. -/
theorem Meets.step (name : String) (meets : Meets walk waypoints) :
    Meets (step name walk) waypoints := by
  have entering : Meets (modify fun walker => walker.within name) [] := meets_modify fun _ => rfl
  have inside : Meets (try walk finally modify Walker.without) waypoints :=
    meets.finally fun _ => rfl
  exact entering.after fun _ => inside

/-- A walk that looks at its place before it goes on meets the waypoints that it meets from every
    place. -/
theorem meets_get {next : Walker → Walk α} (each : ∀ walker, Meets (next walker) waypoints) :
    Meets (get >>= next) waypoints :=
  fun walker => each walker walker

/-- Declaring a name is no waypoint, not even where a frame has to be made for it. -/
theorem waypointsIn_declare (walker : Walker) (extend : Frame → Frame) :
    waypointsIn (walker.declare extend).record = waypointsIn walker.record := by
  unfold Walker.declare
  split
  · change waypointsIn (walker.record ++ [.refilled]) = _
    rw [waypointsIn_append]
    exact List.append_nil _
  · rfl

/-- Declaring variables meets no waypoint. An entry for a frame that had to be made is not counted
    as one. -/
theorem meets_declareAll (bindings : List Binding) :
    Meets (bindings.forM fun binding => modify fun walker => walker.declareVariable binding)
      [] := by
  induction bindings with
  | nil => exact meets_pure ()
  | cons binding bindings ih =>
      exact (meets_modify fun walker => waypointsIn_declare walker _).after fun _ => ih

/-- A block has a waypoint before and another one after those inside it. -/
theorem Meets.inBlock {walk : Walk Unit} (bindings : List Binding) (meets : Meets walk waypoints) :
    Meets (inBlock bindings walk) (.came :: (waypoints ++ [.left])) := by
  have entering : Meets (modify Walker.push) [] := meets_modify fun _ => rfl
  have inside : Meets (try walk finally modify Walker.pop) waypoints := meets.finally fun _ => rfl
  refine meets_get fun walker => ?_
  have coming : Meets (modify fun after => after.note (.came walker.scene)) [.came] :=
    meets_note _ fun _ => rfl
  have leaving : Meets (modify fun after => after.note (.left walker.scene after.scene)) [.left] :=
    meets_note _ fun _ => rfl
  exact coming.bind fun _ => entering.after fun _ => (meets_declareAll bindings).after fun _ =>
    inside.bind fun _ => leaving

/-- A statement has one waypoint on the way in and one on the way out, which names it. Those inside
    it are in between. -/
theorem Meets.passing {walk : Walk Unit} (statement : Statement) (meets : Meets walk waypoints) :
    Meets (Walk.passing statement walk) (.came :: (waypoints ++ [.passed statement])) := by
  refine meets_get fun walker => ?_
  have coming : Meets (modify fun after => after.note (.came walker.scene)) [.came] :=
    meets_note _ fun _ => rfl
  have leaving : Meets (modify fun after =>
      after.note (.passed statement walker.scene after.scene)) [.passed statement] :=
    meets_note _ fun _ => rfl
  exact coming.bind fun _ => meets.bind fun _ => leaving

section Statements

variable {hoisted : Nat → Nat → Walk Unit} {tour : Nat → List Waypoint}

/-- Checking a condition meets no waypoint, for it only looks at the place. -/
theorem meets_comparison (condition : Comparison) : Meets (comparison condition) [] := by
  rw [comparison_look]
  exact meets_look _

/-- Checking a declaration meets no waypoint inside it, for it looks at the place and adds a
    variable. -/
theorem meets_declaration (name type : Token) (value : Value) :
    Meets (declaration name type value) [] := by
  have declaring : Meets (modify fun walker =>
      walker.declareVariable ⟨name.lexeme, type.lexeme⟩) [] :=
    meets_modify fun walker => waypointsIn_declare walker _
  have failing (fault : TypingFault) : Meets (fail name.line fault : Walk Unit) [] := meets_look _
  unfold declaration
  rw [valueType_look]
  refine (meets_look _).after fun _ => (meets_look _).after fun actual =>
    (meets_look _).after fun accepted => ?_
  cases accepted with
  | true => exact declaring
  | false => exact failing _

/-! Where placeholders meet the waypoints of their bodies, statements meet those of their tours. -/

mutual

/-- A statement meets the waypoints of its tour, if placeholders do. The recursion is on the
    statement, its blocks and its branches together. -/
theorem meets_statement (each : ∀ index line, Meets (hoisted index line) (tour index)) :
    ∀ statement : Statement, Meets (Walk.statement hoisted statement) (statement.tour tour)
  | .declaration name type value => by
      simp only [Walk.statement, Statement.tour]
      exact (meets_declaration name type value).step "declaration"
  | .manipulation target value => by
      simp only [Walk.statement, Statement.tour]
      rw [manipulation_look]
      exact (meets_look _).step "manipulation"
  | .call callee arguments => by
      have arguments_look := argumentsFit_look callee.lexeme 1 arguments
      simp only [Walk.statement, Statement.tour]
      rw [callResult_look callee arguments.length arguments_look]
      exact ((meets_look _).after fun _ => meets_pure ()).step "call"
  | .forRange keyword counter start stop body => by
      have inside := meets_block each body [⟨counter.lexeme, .int⟩]
      simp only [Walk.statement, Statement.tour]
      exact ((meets_look _).after fun _ => (meets_look _).after fun _ => inside).step "for"
  | .whileLoop keyword condition body => by
      have inside := meets_block each body []
      simp only [Walk.statement, Statement.tour]
      exact ((meets_comparison condition).after fun _ => inside).step "while"
  | .ifChain list none => by
      simp only [Walk.statement, Statement.tour]
      exact ((meets_branches each list).bind fun _ => meets_pure ()).step "if"
  | .ifChain list (some body) => by
      have inside := meets_block each body []
      simp only [Walk.statement, Statement.tour]
      exact ((meets_branches each list).bind fun _ => inside).step "if"
  | .returnValue keyword value => by
      simp only [Walk.statement, Statement.tour]
      exact (meets_look _).step "return"
  | .hoisted index line => by
      simp only [Walk.statement, Statement.tour]
      exact (each index line).step "function"

/-- A block meets the waypoints of its tour: one on the way in, those of its statements, and one on
    the way out. -/
theorem meets_block (each : ∀ index line, Meets (hoisted index line) (tour index)) :
    ∀ (body : Block Statement) (bindings : List Binding),
      Meets (inBlock bindings (Walk.block hoisted body)) (body.tour tour)
  | ⟨line, list⟩, bindings => by
      simp only [Walk.block, Block.tour]
      exact (meets_statements each list).inBlock bindings

/-- Branches meet the waypoints of their blocks, one after another, and none for their
    conditions. -/
theorem meets_branches (each : ∀ index line, Meets (hoisted index line) (tour index)) :
    ∀ list : List (Branch Statement), Meets (Walk.branches hoisted list) (Branch.tourAll tour list)
  | [] => by
      simp only [Walk.branches, Branch.tourAll]
      exact meets_pure ()
  | ⟨keyword, condition, body⟩ :: later => by
      have inside := meets_block each body []
      simp only [Walk.branches, Branch.tourAll]
      exact (meets_comparison condition).after fun _ =>
        inside.bind fun _ => meets_branches each later

/-- A list of statements meets those of each statement, between the one on the way to it and the one
    behind it. -/
theorem meets_statements (each : ∀ index line, Meets (hoisted index line) (tour index)) :
    ∀ list : List Statement, Meets (Walk.statements hoisted list) (Statement.tourAll tour list)
  | [] => by
      simp only [Walk.statements, Statement.tourAll]
      exact meets_pure ()
  | first :: later => by
      have passes := (meets_statement each first).passing first
      simp only [Walk.statements, Statement.tourAll]
      have both := passes.bind fun _ => meets_statements each later
      simpa using both

end

end Statements

/-! ## Definitions and programs -/

/-- At a placeholder a walk meets the waypoints of the body, whatever stack the body is walked on.
    Where the bound is reached or no function is found, it fails and meets none. -/
theorem meets_definition (functions : List Definition) (bound index line : Nat) :
    Meets (definition functions bound index line) (Definition.tour functions bound index) := by
  induction bound generalizing index line with
  | zero =>
      have failing : Meets (fail line (.endlessDefinition index) : Walk Unit) [] := meets_look _
      exact failing
  | succ bound ih =>
      have declaring (signature : Signature) : Meets (modify fun walker =>
          walker.declareFunction signature) [] :=
        meets_modify fun walker => waypointsIn_declare walker _
      have isolating : Meets (modify Walker.isolate) [] := meets_modify fun _ => rfl
      unfold Walk.definition Definition.tour
      cases functions[index]? with
      | none => exact meets_look _
      | some definition =>
          have inside := meets_block ih definition.body definition.bindings
          refine (declaring definition.signature).after fun _ => meets_get fun outer => ?_
          exact isolating.after fun _ => inside.finally fun _ => rfl

end Walk

/-- What the record of a walk holds, for every program and whatever names it starts with. The walk
    has met the waypoints of the tour, in their order, up to the first fault, and all of them if
    there is none. So if it is accepted, it has left an entry for each statement and each block
    that the tour comes to. -/
theorem record_tour (program : Program) (bindings : List Binding) (signatures : List Signature) :
    waypointsIn (program.record bindings signatures) <+: program.tour ∧
      ((program.analyze bindings signatures).outcome = .ok () →
        waypointsIn (program.record bindings signatures) = program.tour) := by
  have reporting : Walk.Meets (modify fun walker =>
      walker.report (.analyzed program.body.length program.functions.length)) [] :=
    Walk.meets_modify fun _ => rfl
  have meets : Walk.Meets program.walk program.tour :=
    (Walk.meets_statements (Walk.meets_definition _ _) program.body).before fun _ => reporting
  have met : Walk.Met [] program.tour (program.walked bindings signatures #[]) :=
    meets ⟨⟨[⟨bindings, signatures⟩], ["analyze"], false⟩, #[], []⟩
  obtain ⟨scene, record, -, ends⟩ := walked_eq program bindings signatures #[]
  rw [Program.record, Traced.outcome, EStateM.run]
  cases analyzed : program.analyze bindings signatures #[] with
  | ok value events =>
      simp only [analyzed] at ends
      rw [ends] at met ⊢
      cases met with
      | ok all =>
          have whole : waypointsIn record = program.tour := all
          exact ⟨whole ▸ List.prefix_rfl, fun _ => whole⟩
  | error failure events =>
      simp only [analyzed] at ends
      rw [ends] at met ⊢
      cases met with
      | error early some =>
          have same : waypointsIn record = _ := some
          refine ⟨same ▸ early, fun accepted => ?_⟩
          cases accepted

/-! ## The tour of a parsed program -/

open Grammar

/-- Where there are no waypoints, no statement was gone past, which is where counting starts. -/
@[simp]
theorem passedIn_nil : passedIn [] = [] := rfl

/-- On the way into a statement or a block, no statement was gone past yet. -/
@[simp]
theorem passedIn_came (waypoints : List Waypoint) :
    passedIn (.came :: waypoints) = passedIn waypoints := rfl

/-- At the waypoint behind a statement, this statement was gone past, before those of the waypoints
    that come after it. -/
@[simp]
theorem passedIn_passed (statement : Statement) (waypoints : List Waypoint) :
    passedIn (.passed statement :: waypoints) = statement :: passedIn waypoints := rfl

/-- On the way out of a block, no statement was gone past. -/
@[simp]
theorem passedIn_left (waypoints : List Waypoint) :
    passedIn (.left :: waypoints) = passedIn waypoints := rfl

/-- The statements that were gone past at two rows of waypoints are those of the first and then
    those of the second. -/
@[simp]
theorem passedIn_append (waypoints more : List Waypoint) :
    passedIn (waypoints ++ more) = passedIn waypoints ++ passedIn more :=
  List.filterMap_append

/-- The tour of a phrase. That of a statement ends with the statement itself. -/
def Grammar.Phrase.tour (hoisted : Nat → List Waypoint) : Phrase → List Waypoint
  | .block body => body.tour hoisted
  | .continuation branches otherwise =>
      Branch.tourAll hoisted branches ++
        match otherwise with
        | none => []
        | some body => body.tour hoisted
  | .compound statement => statement.tour hoisted ++ [.passed statement]
  | .statements list => Statement.tourAll hoisted list

/-- The statements in the bodies of functions. -/
def innerStatements (functions : List Definition) : List Statement :=
  functions.flatMap fun definition => (definition.body.outline 1).map Prod.snd

/-- The tour of the phrase goes past the statements of the phrase and those of the functions that
    it defines, past each as often as it is there. -/
def Grammar.Phrase.Toured (hoisted : Nat → List Waypoint) (phrase : Phrase)
    (defined : List Definition) : Prop :=
  ∀ depth, ((phrase.outline depth).map Prod.snd ++ innerStatements defined).Perm
    (passedIn (phrase.tour hoisted))

variable {hoisted : Nat → List Waypoint} {defined laterDefined : List Definition}

/-- A phrase with the statements and the waypoints of another, one level deeper or on the same
    level. -/
theorem Grammar.Phrase.Toured.same {phrase other : Phrase}
    (toured : phrase.Toured hoisted defined) (deeper : Nat)
    (outlines : ∀ depth, (other.outline depth).map Prod.snd =
      (phrase.outline (depth + deeper)).map Prod.snd)
    (tours : passedIn (other.tour hoisted) = passedIn (phrase.tour hoisted)) :
    other.Toured hoisted defined := by
  intro depth
  rw [outlines, tours]
  exact toured (depth + deeper)

/-- A phrase that consists of two others is toured if both are, one after the other, and it defines
    the functions of both. -/
theorem Grammar.Phrase.Toured.append {leading following whole : Phrase}
    (toured : leading.Toured hoisted defined) (later : following.Toured hoisted laterDefined)
    (outlines : ∀ depth, (whole.outline depth).map Prod.snd =
      (leading.outline depth).map Prod.snd ++ (following.outline depth).map Prod.snd)
    (tours : passedIn (whole.tour hoisted) =
      passedIn (leading.tour hoisted) ++ passedIn (following.tour hoisted)) :
    whole.Toured hoisted (defined ++ laterDefined) := by
  intro depth
  rw [outlines, tours, innerStatements, List.flatMap_append]
  exact perm_together (toured depth) (later depth)

/-- A branch in front of what continues its chain: the tour goes through its block first. -/
theorem Grammar.Phrase.Toured.branch {keyword : Token} {comparison : Comparison}
    {body : Block Statement} {branches : List (Branch Statement)}
    {otherwise : Option (Block Statement)} (inside : (Phrase.block body).Toured hoisted defined)
    (later : (Phrase.continuation branches otherwise).Toured hoisted laterDefined) :
    (Phrase.continuation (⟨keyword, comparison, body⟩ :: branches) otherwise).Toured hoisted
      (defined ++ laterDefined) := by
  refine inside.append later (fun depth => ?_) ?_
  · simp [Phrase.outline, Branch.outlineAll]
  · simp [Phrase.tour, Branch.tourAll]

/-- A statement in front of others: the tour goes past it before it comes to the next one. -/
theorem Grammar.Phrase.Toured.cons {statement : Statement} {statements : List Statement}
    (first : (Phrase.compound statement).Toured hoisted defined)
    (later : (Phrase.statements statements).Toured hoisted laterDefined) :
    (Phrase.statements (statement :: statements)).Toured hoisted (defined ++ laterDefined) := by
  refine first.append later (fun depth => ?_) ?_
  · simp [Phrase.outline, Statement.outlineAll]
  · simp [Phrase.tour, Statement.tourAll]

/-- A statement around another phrase, which the tour goes past last, is toured if that phrase
    is. -/
theorem Grammar.Phrase.Toured.around {phrase : Phrase} {statement : Statement}
    (toured : phrase.Toured hoisted defined)
    (outlines : ∀ depth, (statement.outline depth).map Prod.snd =
      statement :: (phrase.outline (depth + 1)).map Prod.snd)
    (tours : statement.tour hoisted = phrase.tour hoisted) :
    (Phrase.compound statement).Toured hoisted defined := by
  intro depth
  have inside := (toured (depth + 1)).cons statement
  rw [Phrase.outline, outlines, Phrase.tour, tours, passedIn_append]
  exact inside.trans (List.perm_append_singleton _ _).symm

/-- A placeholder. The tour goes past the statements of the body first, with one body less that
    may be inside another, and then past the placeholder itself. -/
theorem Grammar.Phrase.Toured.definition {functions : List Definition} {bound index line : Nat}
    {definition : Definition} (found : functions[index]? = some definition)
    (toured : (Phrase.block definition.body).Toured (Definition.tour functions bound) defined) :
    (Phrase.compound (.hoisted index line)).Toured (Definition.tour functions (bound + 1))
      (defined ++ [definition]) := by
  intro depth
  have tour : Statement.tour (Definition.tour functions (bound + 1)) (.hoisted index line) =
      definition.body.tour (Definition.tour functions bound) := by
    rw [Statement.tour, Definition.tour, found]
  have inside := (List.perm_append_comm.trans (toured 1)).cons (Statement.hoisted index line)
  rw [Phrase.tour, tour, passedIn_append, innerStatements, List.flatMap_append]
  simpa [Phrase.outline, Statement.outline, innerStatements, Phrase.tour]
    using inside.trans (List.perm_append_singleton _ _).symm

/-- A statement on one line has nothing inside it, so its tour is empty. -/
theorem simple_toured {tokens : List Token} {statement : Statement}
    (derived : SimpleOf tokens statement) :
    (Phrase.compound statement).Toured hoisted [] := by
  cases derived <;> exact fun _ => .refl _

/-- The tour of a derived phrase, by induction on its derivation. The functions of the phrase are
    numbered from `first` on, and their bodies need as many levels as there are functions up to
    the last of them. -/
theorem derives_toured {functions : List Definition} {first : Nat} {tokens : List Token}
    {phrase : Phrase} (derived : Derives first tokens phrase defined)
    (located : Located functions first defined) {bound : Nat}
    (enough : first + defined.length ≤ bound) :
    phrase.Toured (Definition.tour functions bound) defined := by
  induction derived generalizing bound with
  | block first colon newline close tokens list defined isColon isBreak isClose nonempty
      derived ih =>
      refine (ih located enough).same 0 (fun depth => rfl) ?_
      simp [Phrase.tour, Block.tour]
  | chainEnd first => exact fun _ => .refl _
  | otherwise first gap keyword tokens body defined breaks isElse derived ih =>
      exact (ih located enough).same 0 (fun depth => rfl) rfl
  | branch first gap keyword condition tokens later comparison body list otherwise defined
      laterDefined breaks isElif compared derived continued ih laterIh =>
      obtain ⟨here, after⟩ := located_append located
      rw [List.length_append] at enough
      exact (ih here (by omega)).branch (laterIh after (by omega))
  | forRange first keyword counter inside range left start comma stop right tokens body defined
      isFor isCounter isIn isRange opens startBound isComma stopBound closes derived ih =>
      exact (ih located enough).around (fun depth => rfl) rfl
  | whileLoop first keyword condition tokens comparison body defined isWhile compared derived
      ih => exact (ih located enough).around (fun depth => rfl) rfl
  | ifChain first keyword condition tokens later comparison body list otherwise defined
      laterDefined isIf compared derived continued ih laterIh =>
      obtain ⟨here, after⟩ := located_append located
      rw [List.length_append] at enough
      have toured : (Phrase.continuation (⟨keyword, comparison, body⟩ :: list) otherwise).Toured
          (Definition.tour functions bound) (defined ++ laterDefined) :=
        (ih here (by omega)).branch (laterIh after (by omega))
      refine toured.around (fun depth => ?_) ?_
      · cases otherwise <;> simp [Phrase.outline, Statement.outline]
      · cases otherwise <;> simp [Phrase.tour, Statement.tour]
  | definition first keyword name left right inner resultTokens tokens parameters returns body
      defined isDef isName opens listed closes result derived ih =>
      obtain ⟨here, last⟩ := located_append located
      have found := last 0 (by simp)
      rw [Nat.add_zero] at found
      rw [List.length_append, List.length_singleton] at enough
      obtain ⟨bound, rfl⟩ : ∃ smaller, bound = smaller + 1 := ⟨bound - 1, by omega⟩
      exact Phrase.Toured.definition found (ih here (by omega))
  | listEnd first gap breaks => exact fun _ => .refl _
  | simple first gap tokens later statement list defined breaks derived ends continued ih =>
      exact (simple_toured derived).cons (ih located enough)
  | compound first gap tokens later statement list defined laterDefined breaks derived continued
      ih laterIh =>
      obtain ⟨here, after⟩ := located_append located
      rw [List.length_append] at enough
      exact (ih here (by omega)).cons (laterIh after (by omega))

/-- A walk through a parsed program that is accepted goes past every statement of the program, in
    its body and in the bodies of its functions at whatever depth, and past each as often as the
    program has it. Nothing else is gone past, whether or not the program is accepted. -/
theorem record_complete (tokens : List Token) (program : Program)
    (isParsed : (Program.parse tokens).outcome = .ok program) (bindings : List Binding)
    (signatures : List Signature) :
    let passed := passedIn (waypointsIn (program.record bindings signatures))
    passed.Subperm (program.outline.map Prod.snd) ∧
      ((program.analyze bindings signatures).outcome = .ok () →
        passed.Perm (program.outline.map Prod.snd)) := by
  obtain ⟨_, parsing⟩ := (Traced.outcome_ok_iff _ _).mp isParsed
  have derived := (parse_run_iff tokens #[] program).mp ⟨_, parsing⟩
  have whole : (passedIn program.tour).Perm (program.outline.map Prod.snd) := by
    cases derived with
    | program gap clauseTokens tokens clause body functions breaks imported ends derived =>
        have located : Located functions 0 functions := fun index _ => by rw [Nat.zero_add]
        have enough : 0 + functions.length ≤ 3 * functions.length + 1 := by omega
        have toured := derives_toured derived located enough 0
        rw [Program.outline, List.map_append, List.map_flatMap]
        exact toured.symm
  obtain ⟨early, all⟩ := record_tour program bindings signatures
  refine ⟨?_, fun accepted => ?_⟩
  · exact (early.sublist.filterMap Waypoint.statement?).subperm.trans whole.subperm
  · rw [all accepted]
    exact whole

end Offside
