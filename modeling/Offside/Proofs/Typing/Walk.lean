import Offside.Proofs.Layout.Depth
import Offside.Proofs.Syntax.Completeness
import Offside.Proofs.Syntax.Hoisting
import Offside.Typing.Check

/-!
# The walk through hoisted definitions

Static analysis goes from a placeholder to the body of its definition, and from
there to further placeholders. Nothing in the tree says that this comes to an end.
That it does, and that no body is missed or met twice, is followed here by a walk
that leaves a mark for every body it has checked.

The marked walk is the walk of static analysis with one more report after each
body. Removing the marks gives back what the walk itself reports, its result and
its failures, so what the marks say is true of the walk. Along a derivation the
marks are exactly the functions that the derived tokens define, in the order of
their numbers. The bounds of the two walks play no part in this as long as they are
not below the number of functions.
-/

namespace Offside

open Grammar

/-! ## Marks -/

/-- The body that a mark stands for. Static analysis does not report events of this
    form by itself. -/
def Event.mark? : Event → Option Nat
  | .hoisted _ index => some index
  | _ => none

/-- The marks among events, in order. -/
def marksIn (events : Array Event) : List Nat :=
  events.toList.filterMap Event.mark?

/-- The events that are no marks, in order. -/
def unmarked (events : Array Event) : Array Event :=
  events.filter fun event => event.mark?.isNone

/-- The marks among events in a row are those of the first and then those of the second. -/
theorem marksIn_append (events others : Array Event) :
    marksIn (events ++ others) = marksIn events ++ marksIn others := by
  simp [marksIn]

/-- The events that are no marks are those of the first and then those of the second, too. -/
theorem unmarked_append (events others : Array Event) :
    unmarked (events ++ others) = unmarked events ++ unmarked others := by
  simp [unmarked]

/-- Faults that a source text can have. The two others are those of a tree whose
    placeholders lead to no definition or in a circle. -/
def TypingFault.Ordinary : TypingFault → Prop
  | .missingDefinition _ | .endlessDefinition _ => False
  | _ => True

namespace Check

variable {α β : Type}

/-- What checking a placeholder comes to, given how the placeholders in the body are
    checked. -/
def entered (functions : List Definition) (inner : Nat → Nat → Environment → Check Environment)
    (index line : Nat) (environment : Environment) : Check Environment :=
  match functions[index]? with
  | none => fail line (.missingDefinition index)
  | some definition => do
      let declared := environment.declareFunction definition.signature
      let isolated := Environment.seeded [] declared.visibleFunctions
      withReader (fun site => { site with inFunction := true }) do
        inBlock isolated definition.bindings fun inside => block inner inside definition.body
      return declared

/-- A placeholder is checked by entering its definition with one less to enter. -/
theorem definition_succ (functions : List Definition) (bound : Nat) :
    definition functions (bound + 1) = entered functions (definition functions bound) := rfl

/-- The check of a placeholder that leaves a mark when the body has been checked. -/
def markedDefinition (functions : List Definition) :
    Nat → Nat → Nat → Environment → Check Environment
  | 0, index, line, environment => definition functions 0 index line environment
  | bound + 1, index, line, environment => do
      let declared ← entered functions (markedDefinition functions bound) index line environment
      report (.hoisted "" index)
      return declared

/-- The failure is an ordinary fault, met at the steps of the trail or inside
    them. -/
def Blamed (trail : List String) (failure : Failure) : Prop :=
  ∃ inner line fault, TypingFault.Ordinary fault ∧
    failure = .analysis fault.rule ⟨trail ++ inner, line, fault.message⟩

/-- The end of a run. -/
def ended (outcome : Except Failure α) (events : Array Event) :
    EStateM.Result Failure (Array Event) α :=
  match outcome with
  | .ok value => .ok value events
  | .error failure => .error failure events

/-- At the site the check has this outcome and reports these events, whatever was
    reported before. -/
def Runs (check : Check α) (site : Site) (outcome : Except Failure α)
    (reported : Array Event) : Prop :=
  ∀ events, check site events = ended outcome (events ++ reported)

/-- Returning a value has it as its outcome and reports nothing. -/
theorem runs_pure (value : α) (site : Site) : Runs (pure value) site (.ok value) #[] := by
  intro events
  rw [Array.append_empty]
  rfl

/-- Giving up has a failure as its outcome, on the trail of the site, and reports nothing. -/
theorem runs_fail (line : Nat) (fault : TypingFault) (site : Site) :
    Runs (fail line fault : Check α) site
      (.error (.analysis fault.rule ⟨site.trail, line, fault.message⟩)) #[] := by
  intro events
  rw [Array.append_empty]
  rfl

/-- Reporting an event succeeds at every site and reports just this one. -/
theorem runs_report (event : Event) (site : Site) :
    Runs (report event) site (.ok ()) #[event] := by
  intro events
  rw [Array.append_singleton]
  rfl

/-- If a first check succeeds, a sequence has the outcome of the second one, and it reports the
    events of both. -/
theorem runs_bind {check : Check α} {next : α → Check β} {site : Site} {value : α}
    {outcome : Except Failure β} {reported more : Array Event}
    (first : Runs check site (.ok value) reported) (second : Runs (next value) site outcome more) :
    Runs (check >>= next) site outcome (reported ++ more) := by
  intro events
  change EStateM.bind (check site) (fun value => next value site) events = _
  rw [EStateM.bind, first events]
  change next value site (events ++ reported) = _
  rw [second, Array.append_assoc]

/-- If a first check fails, a sequence has this failure, and nothing more is reported. -/
theorem runs_bind_error {check : Check α} {next : α → Check β} {site : Site} {failure : Failure}
    {reported : Array Event} (first : Runs check site (.error failure) reported) :
    Runs (check >>= next) site (.error failure) reported := by
  intro events
  change EStateM.bind (check site) (fun value => next value site) events = _
  rw [EStateM.bind, first events]
  rfl

/-- A run that succeeded has left these marks, and one that failed has met an ordinary
    fault. -/
def Leaves (trail : List String) (marks : List Nat) (outcome : Except Failure α)
    (reported : Array Event) : Prop :=
  match outcome with
  | .ok _ => marksIn reported = marks
  | .error failure => Blamed trail failure

/-- The first check is the second one without its marks: they have the same outcome,
    and a failure is an ordinary fault. If they succeed, the second one has left these
    marks. -/
def Marks (plain marked : Check α) (marks : List Nat) : Prop :=
  ∀ site, ∃ outcome reported, Runs marked site outcome reported ∧
    Runs plain site outcome (unmarked reported) ∧ Leaves site.trail marks outcome reported

/-- The check leaves no marks and has only ordinary faults. -/
abbrev Quiet (check : Check α) : Prop :=
  Marks check check []

/-- Returning a value leaves no marks and has no faults. -/
theorem quiet_pure (value : α) : Quiet (pure value : Check α) :=
  fun site => ⟨.ok value, #[], runs_pure value site, runs_pure value site, rfl⟩

/-- Giving up with an ordinary fault may be said to leave any marks, since marks only count where a
    check succeeds. -/
theorem marks_fail (line : Nat) {fault : TypingFault} (ordinary : fault.Ordinary)
    (marks : List Nat) : Marks (fail line fault : Check α) (fail line fault) marks :=
  fun site => ⟨_, #[], runs_fail line fault site, runs_fail line fault site,
    [], line, fault, ordinary, by simp⟩

/-- Reporting an event that is no mark leaves none, so the events of static analysis itself are
    passed over. -/
theorem quiet_report {event : Event} (noMark : event.mark? = none) : Quiet (report event) := by
  intro site
  have kept : unmarked #[event] = #[event] := by simp [unmarked, noMark]
  refine ⟨.ok (), #[event], runs_report event site, ?_, by simp [Leaves, marksIn, noMark]⟩
  rw [kept]
  exact runs_report event site

/-- The mark of a body is left by reporting it, where the check without marks does nothing. -/
theorem marks_mark (name : String) (index : Nat) :
    Marks (pure () : Check Unit) (report (.hoisted name index)) [index] := by
  intro site
  have removed : unmarked #[.hoisted name index] = #[] := by simp [unmarked, Event.mark?]
  refine ⟨.ok (), #[.hoisted name index], runs_report _ site, ?_, ?_⟩
  · rw [removed]
    exact runs_pure () site
  · simp [Leaves, marksIn, Event.mark?]

/-- One check after another leaves the marks of both, those of the first before those of the
    second. -/
theorem marks_bind {plain marked : Check α} {next markedNext : α → Check β}
    {marks more : List Nat} (first : Marks plain marked marks)
    (second : ∀ value, Marks (next value) (markedNext value) more) :
    Marks (plain >>= next) (marked >>= markedNext) (marks ++ more) := by
  intro site
  obtain ⟨outcome, reported, markedRun, plainRun, ends⟩ := first site
  cases outcome with
  | error failure =>
      exact ⟨.error failure, reported, runs_bind_error markedRun, runs_bind_error plainRun, ends⟩
  | ok value =>
      obtain ⟨result, later, markedLater, plainLater, laterEnds⟩ := second value site
      refine ⟨result, reported ++ later, runs_bind markedRun markedLater, ?_, ?_⟩
      · rw [unmarked_append]
        exact runs_bind plainRun plainLater
      · cases result with
        | error failure => exact laterEnds
        | ok final =>
            dsimp only [Leaves] at ends laterEnds ⊢
            rw [marksIn_append, ends, laterEnds]

/-- A check that leaves no marks, before one that does, may be passed over. -/
theorem marks_after {check : Check α} {next markedNext : α → Check β} {marks : List Nat}
    (first : Quiet check) (second : ∀ value, Marks (next value) (markedNext value) marks) :
    Marks (check >>= next) (check >>= markedNext) marks :=
  marks_bind first second

/-- A check that leaves marks, before one that does not, has left all of them. -/
theorem marks_before {plain marked : Check α} {next : α → Check β} {marks : List Nat}
    (first : Marks plain marked marks) (second : ∀ value, Quiet (next value)) :
    Marks (plain >>= next) (marked >>= next) marks := by
  have both := marks_bind first second
  rwa [List.append_nil] at both

/-- Checks inside steps of one name differ by the marks by which they differ without the steps. -/
theorem marks_step (name : String) {plain marked : Check α} {marks : List Nat}
    (inside : Marks plain marked marks) : Marks (step name plain) (step name marked) marks := by
  intro site
  obtain ⟨outcome, reported, markedRun, plainRun, ends⟩ :=
    inside { site with trail := site.trail ++ [name] }
  refine ⟨outcome, reported, markedRun, plainRun, ?_⟩
  cases outcome with
  | ok value => exact ends
  | error failure =>
      obtain ⟨inner, line, fault, ordinary, rfl⟩ := ends
      exact ⟨name :: inner, line, fault, ordinary, by simp⟩

/-- Checks of function bodies differ by the marks by which they differ at every site. -/
theorem marks_inFunction {plain marked : Check α} {marks : List Nat}
    (inside : Marks plain marked marks) :
    Marks (withReader (fun site : Site => { site with inFunction := true }) plain)
      (withReader (fun site : Site => { site with inFunction := true }) marked) marks :=
  fun site => inside { site with inFunction := true }

/-- A check that reports leaving a block when it fails. -/
def guarded (depth : Nat) (check : Check Environment) : Check Environment :=
  tryCatch check fun failure => do
    report (.leftScope depth)
    throw failure

/-- A check that succeeds is not changed by what is done when it fails. -/
theorem runs_guarded_ok {check : Check Environment} {site : Site} {value : Environment}
    {reported : Array Event} (run : Runs check site (.ok value) reported) (depth : Nat) :
    Runs (guarded depth check) site (.ok value) reported := by
  intro events
  change EStateM.tryCatch (check site) _ events = _
  rw [EStateM.tryCatch, run events]
  rfl

/-- A check that fails reports that its block is left, behind its own events, and the failure is the
    same. -/
theorem runs_guarded_error {check : Check Environment} {site : Site} {failure : Failure}
    {reported : Array Event} (run : Runs check site (.error failure) reported) (depth : Nat) :
    Runs (guarded depth check) site (.error failure) (reported.push (.leftScope depth)) := by
  intro events
  change EStateM.tryCatch (check site) _ events = _
  rw [EStateM.tryCatch, run events, Array.append_push]
  rfl

/-- A block leaves the marks of what is in it. Going into it and leaving it are events, but no
    marks. -/
theorem marks_inBlock (environment : Environment) (bindings : List Binding)
    {plain marked : Environment → Check Environment} {marks : List Nat}
    (inside : Marks (plain (environment.enter bindings)) (marked (environment.enter bindings))
      marks) :
    Marks (inBlock environment bindings plain) (inBlock environment bindings marked) marks := by
  refine marks_after (quiet_report rfl) fun _ => marks_before ?_ fun _ => quiet_report rfl
  intro site
  obtain ⟨outcome, reported, markedRun, plainRun, ends⟩ := inside site
  cases outcome with
  | ok value =>
      exact ⟨.ok value, reported, runs_guarded_ok markedRun _, runs_guarded_ok plainRun _, ends⟩
  | error failure =>
      refine ⟨.error failure, _, runs_guarded_error markedRun _, ?_, ends⟩
      have kept (depth : Nat) : unmarked (reported.push (.leftScope depth)) =
          (unmarked reported).push (.leftScope depth) := by simp [unmarked, Event.mark?]
      rw [kept]
      exact runs_guarded_error plainRun _

/-- Checks that leave no marks leave none for a list of items, by induction on the list. -/
theorem quiet_forM {items : List α} {check : α → Check Unit}
    (quiet : ∀ item, Quiet (check item)) : Quiet (items.forM check) := by
  induction items with
  | nil => exact quiet_pure ()
  | cons item items ih => exact marks_after (quiet item) fun _ => ih

/-! ## Checks without placeholders -/

/-- Finding the type of a leaf leaves no marks, and its faults are ordinary ones. -/
theorem quiet_terminalType (environment : Environment) (token : Token) :
    Quiet (terminalType environment token) := by
  unfold terminalType
  split
  · exact quiet_pure _
  · exact quiet_pure _
  · exact quiet_pure _
  · exact quiet_pure _
  · split
    · exact quiet_pure _
    · exact marks_fail _ (by trivial) _

/-- Looking up what a leaf refers to leaves no marks, and its faults are ordinary ones. -/
theorem quiet_reference (environment : Environment) (token : Token) :
    Quiet (reference environment token) := by
  unfold reference
  split
  · exact marks_fail _ (by trivial) _
  · exact quiet_pure ()

/-- Settling whether a type fits the expected one leaves no marks and has no faults. -/
theorem quiet_accepts (actual : StaticType) (expected : TypeName) :
    Quiet (accepts actual expected) := by
  unfold accepts
  dsimp only
  split
  · exact marks_after (quiet_report rfl) fun _ => quiet_pure _
  · exact quiet_pure _

/-- Finding the result of a call leaves no marks, if going through its arguments leaves none. -/
theorem quiet_callResult (environment : Environment) (callee : Token) (count : Nat)
    {arguments : List TypeName → Check Unit} (quiet : ∀ expected, Quiet (arguments expected)) :
    Quiet (callResult environment callee count arguments) := by
  have found : Quiet (signatureOf environment callee) := by
    unfold signatureOf
    split
    · exact quiet_pure _
    · split
      · exact quiet_pure _
      · exact marks_fail _ (by trivial) _
  refine marks_after found fun signature => ?_
  split
  · exact marks_after (marks_fail _ (by trivial) _) fun _ =>
      marks_after (quiet _) fun _ => quiet_pure _
  · exact marks_after (quiet _) fun _ => quiet_pure _

mutual

/-- Finding the type of a value leaves no marks. The recursion goes through the arguments of
    calls. -/
theorem quiet_valueType (environment : Environment) :
    (value : Value) → Quiet (valueType environment value)
  | .terminal token => by
      rw [valueType]
      exact quiet_terminalType environment token
  | .call callee arguments => by
      rw [valueType]
      exact marks_step "call" (quiet_callResult _ _ _ fun expected =>
        quiet_argumentsFit environment callee.lexeme 1 arguments expected)

/-- Going through arguments leaves no marks, as finding their types does not. -/
theorem quiet_argumentsFit (environment : Environment) (callee : String) (position : Nat) :
    (arguments : List Value) → (expected : List TypeName) →
      Quiet (argumentsFit environment callee position arguments expected)
  | [], _ => by
      rw [argumentsFit]
      · exact quiet_pure ()
      · simp
  | argument :: arguments, [] => by
      rw [argumentsFit]
      · exact quiet_pure ()
      · simp
  | argument :: arguments, expected :: parameters => by
      rw [argumentsFit]
      refine marks_after (quiet_valueType environment argument) fun actual =>
        marks_after (quiet_accepts _ _) fun accepted => ?_
      split
      · exact quiet_argumentsFit environment callee (position + 1) arguments parameters
      · exact marks_fail _ (by trivial) _

end

/-- Checking an expression leaves no marks, for looking up its operands leaves none. -/
theorem quiet_expression (environment : Environment) (value : Expression) :
    Quiet (Check.expression environment value) :=
  marks_step "expression" (quiet_forM fun operand => quiet_reference environment operand)

/-- Checking a condition leaves no marks, for neither of its sides does. -/
theorem quiet_comparison (environment : Environment) (condition : Comparison) :
    Quiet (Check.comparison environment condition) :=
  marks_step "comparison" (quiet_forM fun value => quiet_expression environment value)

/-- Checking a declaration leaves no marks, whatever its value is, and declaring the variable adds
    none. -/
theorem quiet_declaration (environment : Environment) (name type : Token) (value : Value) :
    Quiet (declaration environment name type value) := by
  have bound : Quiet (do
      let actual ← valueType environment value
      if ← accepts actual type.lexeme then
        return environment.declareVariable ⟨name.lexeme, type.lexeme⟩
      else fail name.line (.declarationType name.lexeme type.lexeme actual.name)) := by
    refine marks_after (quiet_valueType environment value) fun actual =>
      marks_after (quiet_accepts _ _) fun accepted => ?_
    split
    · exact quiet_pure _
    · exact marks_fail _ (by trivial) _
  unfold declaration
  split
  · exact marks_after (marks_fail _ (by trivial) _) fun _ => bound
  · exact bound

/-- Checking an assignment leaves no marks, neither for its target nor for its expression. -/
theorem quiet_manipulation (environment : Environment) (target : Token) (value : Expression) :
    Quiet (manipulation environment target value) := by
  unfold manipulation
  split
  · exact marks_after (marks_fail _ (by trivial) _) fun _ => quiet_expression environment value
  · exact quiet_expression environment value

/-- Checking a return statement leaves no marks, inside of a function or not. -/
theorem quiet_returnValue (environment : Environment) (keyword value : Token) :
    Quiet (returnValue environment keyword value) := by
  have asked : Quiet (read : Check Site) :=
    fun site => ⟨.ok site, #[], runs_pure site site, runs_pure site site, rfl⟩
  refine marks_after asked fun site => ?_
  split
  · exact marks_after (marks_fail _ (by trivial) _) fun _ => quiet_reference environment value
  · exact quiet_reference environment value

/-! ## Statements -/

/-- The checks of all branches of a chain, and of its last block if there is one. -/
def chain (hoisted : Nat → Nat → Environment → Check Environment) (environment : Environment)
    (list : List (Branch Statement)) (otherwise : Option (Block Statement)) : Check Unit := do
  branches hoisted environment list
  match otherwise with
  | none => return ()
  | some body => inBlock environment [] fun inner => block hoisted inner body

section Statements

variable (plain marked : Nat → Nat → Environment → Check Environment)

/-- The two ways of checking placeholders differ by these marks in the phrase. -/
def PhraseMarks (marks : List Nat) : Phrase → Prop
  | .block body =>
      ∀ environment, Marks (block plain environment body) (block marked environment body) marks
  | .continuation list otherwise =>
      ∀ environment,
        Marks (chain plain environment list otherwise) (chain marked environment list otherwise)
          marks
  | .compound single =>
      ∀ environment,
        Marks (statement plain environment single) (statement marked environment single) marks
  | .statements list =>
      ∀ environment,
        Marks (statements plain environment list) (statements marked environment list) marks

variable {plain marked} {marks more : List Nat}

/-- A block that starts out with some variables leaves the marks of its statements. -/
theorem PhraseMarks.inBlock {body : Block Statement}
    (inside : PhraseMarks plain marked marks (.block body)) (environment : Environment)
    (bindings : List Binding) :
    Marks (inBlock environment bindings fun inner => block plain inner body)
      (inBlock environment bindings fun inner => block marked inner body) marks :=
  marks_inBlock environment bindings (inside (environment.enter bindings))

/-- A loop over a range leaves the marks of its block, and checking its bounds adds none. -/
theorem forRange_marks (keyword counter start stop : Token) {body : Block Statement}
    (inside : PhraseMarks plain marked marks (.block body)) :
    PhraseMarks plain marked marks (.compound (.forRange keyword counter start stop body)) := by
  intro environment
  simp only [statement]
  refine marks_before (marks_step "for" ?_) fun _ => quiet_pure _
  exact marks_after (quiet_reference _ _) fun _ => marks_after (quiet_reference _ _) fun _ =>
    inside.inBlock environment _

/-- A loop with a condition leaves the marks of its block, and checking its condition adds none. -/
theorem whileLoop_marks (keyword : Token) (condition : Comparison) {body : Block Statement}
    (inside : PhraseMarks plain marked marks (.block body)) :
    PhraseMarks plain marked marks (.compound (.whileLoop keyword condition body)) := by
  intro environment
  simp only [statement]
  refine marks_before (marks_step "while" ?_) fun _ => quiet_pure _
  exact marks_after (quiet_comparison _ _) fun _ => inside.inBlock environment _

/-- A branch leaves the marks of its block, and then come those of the rest of the
    chain. -/
theorem branch_marks (keyword : Token) (condition : Comparison) {body : Block Statement}
    {list : List (Branch Statement)} {otherwise : Option (Block Statement)}
    (inside : PhraseMarks plain marked marks (.block body))
    (later : PhraseMarks plain marked more (.continuation list otherwise)) :
    PhraseMarks plain marked (marks ++ more)
      (.continuation (⟨keyword, condition, body⟩ :: list) otherwise) := by
  intro environment
  simp only [chain, branches, bind_assoc]
  exact marks_after (quiet_comparison _ _) fun _ =>
    marks_bind (inside.inBlock environment _) fun _ => later environment

/-- A chain leaves the marks of its blocks, one after another, and checking the conditions adds
    none. -/
theorem ifChain_marks {list : List (Branch Statement)} {otherwise : Option (Block Statement)}
    (inside : PhraseMarks plain marked marks (.continuation list otherwise)) :
    PhraseMarks plain marked marks (.compound (.ifChain list otherwise)) := by
  intro environment
  cases otherwise with
  | none =>
      simp only [statement]
      exact marks_before (marks_step "if" (inside environment)) fun _ => quiet_pure _
  | some body =>
      simp only [statement]
      exact marks_before (marks_step "if" (inside environment)) fun _ => quiet_pure _

/-- A body leaves its own mark after those of the definitions in it. -/
theorem definition_marks {functions : List Definition} {index line : Nat} {bound other : Nat}
    {definition : Definition} (found : functions[index]? = some definition)
    (inside : PhraseMarks (Check.definition functions bound) (markedDefinition functions other)
      marks (.block definition.body)) :
    PhraseMarks (Check.definition functions (bound + 1)) (markedDefinition functions (other + 1))
      (marks ++ [index]) (.compound (.hoisted index line)) := by
  intro environment
  have entering : Marks
      (entered functions (Check.definition functions bound) index line environment)
      (entered functions (markedDefinition functions other) index line environment) marks := by
    simp only [entered, found]
    exact marks_before (marks_inFunction (inside.inBlock _ _)) fun _ => quiet_pure _
  have whole := marks_bind entering fun declared =>
    marks_before (marks_mark "" index) fun _ => quiet_pure declared
  simp only [statement, definition_succ, markedDefinition]
  apply marks_step
  simpa using whole

/-- A statement without placeholders leaves no marks, so those on one line do not. -/
theorem simple_quiet {tokens : List Token} {single : Statement}
    (derived : SimpleOf tokens single) : PhraseMarks plain marked [] (.compound single) := by
  intro environment
  cases derived with
  | declaration name colon type assign tokens value =>
      simp only [statement]
      exact marks_step "declaration" (quiet_declaration environment name type value)
  | manipulation target assign tokens value =>
      simp only [statement]
      exact marks_after (marks_step "manipulation" (quiet_manipulation environment target value))
        fun _ => quiet_pure _
  | call tokens callee arguments =>
      simp only [statement]
      exact marks_after
        (marks_step "call" (quiet_callResult _ _ _ fun expected => quiet_argumentsFit _ _ _ _ _))
        fun _ => quiet_pure _
  | returnValue keyword value =>
      simp only [statement]
      exact marks_after (marks_step "return" (quiet_returnValue environment keyword value))
        fun _ => quiet_pure _

/-- A list of statements leaves the marks of its first statement and then those of the others. -/
theorem statements_marks {single : Statement} {list : List Statement}
    (first : PhraseMarks plain marked marks (.compound single))
    (later : PhraseMarks plain marked more (.statements list)) :
    PhraseMarks plain marked (marks ++ more) (.statements (single :: list)) := by
  intro environment
  simp only [statements]
  exact marks_bind (first environment) fun next => later next

end Statements

/-- The marks of a derived phrase are the functions that it defines, in the order of
    their numbers, whatever the bounds of the two walks are. -/
theorem derives_marks {functions : List Definition} {first : Nat} {tokens : List Token}
    {phrase : Phrase} {defined : List Definition} (derived : Derives first tokens phrase defined)
    (located : Located functions first defined) {bound other : Nat}
    (enough : first + defined.length ≤ bound) (otherEnough : first + defined.length ≤ other) :
    PhraseMarks (Check.definition functions bound) (markedDefinition functions other)
      (List.range' first defined.length) phrase := by
  induction derived generalizing bound other with
  | block first colon newline close tokens list defined isColon isBreak isClose nonempty
      derived ih =>
      intro environment
      simp only [block]
      exact ih located enough otherEnough environment
  | chainEnd first =>
      intro environment
      simp only [chain, branches]
      exact marks_after (quiet_pure ()) fun _ => quiet_pure ()
  | otherwise first gap keyword tokens body defined breaks isElse derived ih =>
      intro environment
      simp only [chain, branches]
      exact marks_after (quiet_pure ()) fun _ =>
        (ih located enough otherEnough).inBlock environment []
  | branch first gap keyword condition tokens later comparison body list otherwise defined
      laterDefined breaks isElif compared derived continued ih laterIh =>
      obtain ⟨here, after⟩ := located_append located
      rw [List.length_append] at enough otherEnough ⊢
      rw [← List.range'_append_1]
      exact branch_marks keyword comparison (ih here (by omega) (by omega))
        (laterIh after (by omega) (by omega))
  | forRange first keyword counter inside range left start comma stop right tokens body defined
      isFor isCounter isIn isRange opens startBound isComma stopBound closes derived ih =>
      exact forRange_marks keyword counter start stop (ih located enough otherEnough)
  | whileLoop first keyword condition tokens comparison body defined isWhile compared derived
      ih => exact whileLoop_marks keyword comparison (ih located enough otherEnough)
  | ifChain first keyword condition tokens later comparison body list otherwise defined
      laterDefined isIf compared derived continued ih laterIh =>
      obtain ⟨here, after⟩ := located_append located
      rw [List.length_append] at enough otherEnough ⊢
      rw [← List.range'_append_1]
      exact ifChain_marks (branch_marks keyword comparison (ih here (by omega) (by omega))
        (laterIh after (by omega) (by omega)))
  | definition first keyword name left right inner resultTokens tokens parameters returns body
      defined isDef isName opens listed closes result derived ih =>
      obtain ⟨here, last⟩ := located_append located
      have found := last 0 (by simp)
      rw [Nat.add_zero] at found
      rw [List.length_append, List.length_singleton] at enough otherEnough ⊢
      obtain ⟨bound, rfl⟩ : ∃ smaller, bound = smaller + 1 := ⟨bound - 1, by omega⟩
      obtain ⟨other, rfl⟩ : ∃ smaller, other = smaller + 1 := ⟨other - 1, by omega⟩
      rw [← List.range'_append_1]
      exact definition_marks found (ih here (by omega) (by omega))
  | listEnd first gap breaks =>
      intro environment
      simp only [statements]
      exact quiet_pure environment
  | simple first gap tokens later single list defined breaks derived ends continued ih =>
      exact statements_marks (simple_quiet derived) (ih located enough otherEnough)
  | compound first gap tokens later single list defined laterDefined breaks derived continued ih
      laterIh =>
      obtain ⟨here, after⟩ := located_append located
      rw [List.length_append] at enough otherEnough ⊢
      rw [← List.range'_append_1]
      exact statements_marks (ih here (by omega) (by omega)) (laterIh after (by omega) (by omega))

end Check

/-! ## Whole programs -/

/-- Static analysis with its own way of checking placeholders. -/
def Program.analyzeWith (program : Program)
    (hoisted : Nat → Nat → Environment → Check Environment) (bindings : List Binding)
    (signatures : List Signature) : Traced Unit := do
  let _ ← Check.statements hoisted (.seeded bindings signatures) program.body ⟨["analyze"], false⟩
  Traced.report (.analyzed program.body.length program.functions.length)

/-- Static analysis that leaves a mark for every body it has checked. -/
def Program.markedAnalysis (program : Program) (bindings : List Binding)
    (signatures : List Signature) : Traced Unit :=
  program.analyzeWith (Check.markedDefinition program.functions program.definitionBound) bindings
    signatures

/-- A whole analysis is a check of the body, and then a report. -/
theorem Program.analyzeWith_eq (program : Program)
    (hoisted : Nat → Nat → Environment → Check Environment) (bindings : List Binding)
    (signatures : List Signature) :
    program.analyzeWith hoisted bindings signatures =
      (Check.statements hoisted (.seeded bindings signatures) program.body >>= fun _ =>
        Check.report (.analyzed program.body.length program.functions.length))
          ⟨["analyze"], false⟩ := rfl

/-- The marks of a whole analysis, whatever the bounds of the two walks are. -/
theorem analysis_marks {tokens : List Token} {program : Program}
    (derived : ProgramOf tokens program) (bindings : List Binding) (signatures : List Signature)
    {bound other : Nat} (enough : program.functions.length ≤ bound)
    (otherEnough : program.functions.length ≤ other) :
    ∃ (outcome : Except Failure Unit) (reported : Array Event),
      (∀ events, program.analyzeWith (Check.markedDefinition program.functions other) bindings
        signatures events = Check.ended outcome (events ++ reported)) ∧
      (∀ events, program.analyzeWith (Check.definition program.functions bound) bindings
        signatures events = Check.ended outcome (events ++ unmarked reported)) ∧
      Check.Leaves ["analyze"] (List.range program.functions.length) outcome reported := by
  cases derived with
  | program gap clauseTokens tokens clause body functions breaks imported ends derived =>
      have located : Located functions 0 functions := fun index _ => by rw [Nat.zero_add]
      have marks : Check.PhraseMarks (Check.definition functions bound)
          (Check.markedDefinition functions other) (List.range functions.length)
          (.statements body) := by
        rw [List.range_eq_range']
        exact Check.derives_marks derived located (by rwa [Nat.zero_add]) (by rwa [Nat.zero_add])
      have reported : Check.Quiet (Check.report (.analyzed body.length functions.length)) :=
        Check.quiet_report rfl
      simp only [Program.analyzeWith_eq]
      exact Check.marks_before (marks (.seeded bindings signatures)) (fun _ => reported)
        ⟨["analyze"], false⟩

/-- The bound for bodies inside one another is large enough for all functions of a program. -/
theorem Program.length_le_definitionBound (program : Program) :
    program.functions.length ≤ program.definitionBound := by
  unfold Program.definitionBound
  omega

/-- From the number of functions on, the bound on definitions inside one another is
    without influence: every walk runs like the marked one, and that one has a single
    run. -/
theorem analysis_bounded {tokens : List Token} {program : Program}
    (derived : ProgramOf tokens program) (bindings : List Binding) (signatures : List Signature)
    {bound other : Nat} (enough : program.functions.length ≤ bound)
    (otherEnough : program.functions.length ≤ other) (events : Array Event) :
    program.analyzeWith (Check.definition program.functions bound) bindings signatures events =
      program.analyzeWith (Check.definition program.functions other) bindings signatures events := by
  obtain ⟨outcome, reported, marked, plain, -⟩ :=
    analysis_marks derived bindings signatures enough otherEnough
  obtain ⟨otherOutcome, otherReported, otherMarked, otherPlain, -⟩ :=
    analysis_marks derived bindings signatures otherEnough otherEnough
  have same : Check.ended outcome reported = Check.ended otherOutcome otherReported := by
    simpa using (marked #[]).symm.trans (otherMarked #[])
  have sameRun : outcome = otherOutcome ∧ reported = otherReported := by
    cases outcome <;> cases otherOutcome <;> simp_all [Check.ended]
  rw [plain, otherPlain, sameRun.1, sameRun.2]

/-- The letter that the message of a fault starts with. -/
def TypingFault.initial : TypingFault → Char
  | .undeclaredTarget _ | .argumentType .. => 'a'
  | .undeclaredVariable _ => 'u'
  | .undeclaredFunction _ => 'c'
  | .missingDefinition _ => 'n'
  | .argumentCount .. => 'f'
  | .declarationType .. | .redeclaration .. => 'v'
  | .returnOutsideFunction => '`'
  | .endlessDefinition _ => 't'

/-- The message of a fault starts with the letter of its kind, so faults that start differently are
    told apart by their wording. -/
theorem TypingFault.head?_message (fault : TypingFault) :
    fault.message.toList.head? = some fault.initial := by
  have opening {text : String} {letter : Char} (starts : text.toList.head? = some letter)
      (rest : String) : (text ++ rest).toList.head? = some letter := by
    rw [String.toList_append, List.head?_append, starts]
    rfl
  cases fault with
  | undeclaredTarget name => exact opening (opening rfl _) _
  | undeclaredVariable name => exact opening (opening rfl _) _
  | undeclaredFunction name => exact opening (opening rfl _) _
  | missingDefinition index => exact opening rfl _
  | argumentCount callee expected received =>
      exact opening (opening (opening (opening (opening rfl _) _) _) _) _
  | argumentType position callee expected actual =>
      exact opening (opening (opening (opening (opening (opening (opening (opening
        rfl _) _) _) _) _) _) _) _
  | declarationType name declared actual =>
      exact opening (opening (opening (opening (opening (opening rfl _) _) _) _) _) _
  | redeclaration name existing =>
      exact opening (opening (opening (opening rfl _) _) _) _
  | returnOutsideFunction => rfl
  | endlessDefinition index => exact opening (opening rfl _) _

/-- The message of an ordinary fault is not that of one of the other two. -/
theorem TypingFault.Ordinary.message_ne {fault : TypingFault} (ordinary : fault.Ordinary)
    (index : Nat) :
    fault.message ≠ (TypingFault.missingDefinition index).message ∧
      fault.message ≠ (TypingFault.endlessDefinition index).message := by
  have apart {other : TypingFault} (differs : fault.initial ≠ other.initial) :
      fault.message ≠ other.message := by
    intro same
    have letters : some fault.initial = some other.initial := by
      rw [← fault.head?_message, same, other.head?_message]
    exact differs (Option.some.inj letters)
  have letters : fault.initial ≠ 'n' ∧ fault.initial ≠ 't' := by
    cases fault <;> simp_all [TypingFault.initial, TypingFault.Ordinary]
  exact ⟨apart letters.1, apart letters.2⟩

/-- Every function of a parsed program has exactly one placeholder, on the line of its
    definition, and a body only has placeholders of functions numbered before its own.

    So static analysis comes to an end by itself: from the number of functions on, the
    bound on definitions inside one another is without influence. It never finds a
    placeholder without a definition or one that leads in a circle. The walk that marks
    the bodies it has checked differs from it by these marks only, and when the program
    is accepted, every body has been checked exactly once. -/
theorem hoisting_wellFounded (tokens : List Token) (program : Program)
    (isParsed : (Program.parse tokens).outcome = .ok program) :
    program.Hoisted ∧ ∀ (bindings : List Binding) (signatures : List Signature),
      let analysis := program.analyze bindings signatures
      let marked := program.markedAnalysis bindings signatures
      (∀ bound, program.functions.length ≤ bound →
        (program.analyzeWith (Check.definition program.functions bound) bindings
          signatures).run #[] = analysis.run #[]) ∧
      (∀ failure, analysis.outcome = .error failure →
        ∃ rule diagnostic, failure = .analysis rule diagnostic ∧
          ∀ index, diagnostic.message ≠ (TypingFault.missingDefinition index).message ∧
            diagnostic.message ≠ (TypingFault.endlessDefinition index).message) ∧
      marked.outcome = analysis.outcome ∧
      marked.events.filter (fun event => event.mark?.isNone) = analysis.events ∧
      (analysis.outcome = .ok () →
        marked.events.filterMap Event.mark? = List.range program.functions.length) := by
  obtain ⟨_, parsing⟩ := (Traced.outcome_ok_iff _ _).mp isParsed
  have derived := (parse_run_iff tokens #[] program).mp ⟨_, parsing⟩
  refine ⟨program_hoisted derived, fun bindings signatures => ?_⟩
  intro analysis marked
  have enough := program.length_le_definitionBound
  refine ⟨fun bound reaches => analysis_bounded derived bindings signatures reaches enough #[], ?_⟩
  obtain ⟨outcome, reported, markedRun, plainRun, ends⟩ :=
    analysis_marks derived bindings signatures enough enough
  have isMarked : marked #[] = Check.ended outcome (#[] ++ reported) := markedRun #[]
  have isAnalysis : analysis #[] = Check.ended outcome (#[] ++ unmarked reported) := plainRun #[]
  rw [Array.empty_append] at isMarked isAnalysis
  simp only [Traced.outcome, Traced.events, EStateM.run]
  rw [isMarked, isAnalysis]
  cases outcome with
  | ok value =>
      refine ⟨?_, rfl, ?_, fun _ => ends⟩
      · rintro failure ⟨⟩
      · simp [Check.ended, unmarked]
  | error failure =>
      obtain ⟨inner, line, fault, ordinary, rfl⟩ := ends
      refine ⟨?_, rfl, ?_, ?_⟩
      · rintro _ ⟨⟩
        exact ⟨fault.rule, _, rfl, fun index => ordinary.message_ne index⟩
      · simp [Check.ended, unmarked]
      · rintro ⟨⟩

/-- A definition with another one inside it, and one more after it: the inner one has
    number 0, the outer one number 1. -/
theorem hoisting_wellFounded_nested :
    let word (kind : Kind) (lexeme : String) (line : Nat) : Token := ⟨kind, lexeme, line⟩
    let name (lexeme : String) (line : Nat) : Token := word .identifier lexeme line
    let header (called : String) (line : Nat) : List Token :=
      [word .defWord "def" line, name called line, word .leftParen "(" line,
        word .rightParen ")" line, word .colon ":" line, .newline line]
    let giving (digit : String) (line : Nat) : List Token :=
      [word .returnWord "return" line, word .intLiteral digit line, .newline line,
        .closeBlock line]
    let tokens : List Token :=
      [word .importWord "import" 1, name "GoType" 1, .newline 1] ++ header "outer" 2 ++
        header "inner" 3 ++ giving "1" 4 ++ giving "2" 5 ++ header "last" 6 ++ giving "3" 7
    let one (called digit : String) (line last : Nat) (before : List Statement) : Definition :=
      ⟨word .defWord "def" line, name called line, [], none,
        ⟨line, before ++
          [.returnValue (word .returnWord "return" last) (word .intLiteral digit last)]⟩⟩
    let program : Program :=
      ⟨⟨name "GoType" 1, none, 1⟩, [.hoisted 1 2, .hoisted 2 6],
        [one "inner" "1" 3 4 [], one "outer" "2" 2 5 [.hoisted 0 3], one "last" "3" 6 7 []]⟩
    (Program.parse tokens).outcome = .ok program ∧ program.Hoisted ∧
      (program.analyze [] []).outcome = .ok () ∧
        (program.markedAnalysis [] []).events.filterMap Event.mark? = [0, 1, 2] := by
  intro word name header giving tokens one program
  have isParsed : (Program.parse tokens).outcome = .ok program := by cbv
  have accepted : (program.analyze [] []).outcome = .ok () := by cbv
  obtain ⟨hoisted, analyses⟩ := hoisting_wellFounded tokens program isParsed
  obtain ⟨_, _, _, _, marks⟩ := analyses [] []
  exact ⟨isParsed, hoisted, accepted, marks accepted⟩

end Offside
