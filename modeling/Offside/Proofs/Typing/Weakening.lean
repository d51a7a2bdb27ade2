import Offside.Proofs.Typing.Frames

/-!
# More names from outside

A program that is accepted with some names given from outside is accepted with more of them.
What is given in addition comes before all other names of the outermost frame, so it is found
last: every name that stood for something still stands for the same, and only a name that
stood for nothing may come to stand for something. The one check that a name can fail by being
there is the one against a second declaration, and it looks at one frame only. So the
additional variables do no harm exactly if the body of the program declares none of them in
its own list of statements; blocks and function bodies may.

The environments of the two walks differ by a frame that is laid under the outermost one.
Inside a function body that frame has functions only.
-/

namespace Offside

/-! ## A frame under the outermost one -/

/-- The names of both frames, those of the ground first. -/
def Frame.on (frame ground : Frame) : Frame where
  bindings := ground.bindings ++ frame.bindings
  functions := ground.functions ++ frame.functions

namespace Environment

/-- A stack of frames with more names in the outermost one. -/
def grounded (ground innermost : Frame) : List Frame → Environment
  | [] => ⟨innermost.on ground, []⟩
  | outer :: enclosing => ⟨innermost, (grounded ground outer enclosing).frames⟩

/-- The environment with more names in the outermost frame, before the others. -/
def on (environment : Environment) (ground : Frame) : Environment :=
  grounded ground environment.innermost environment.enclosing

variable (environment : Environment) (ground : Frame)

/-- A frame may be entered before more ground is given or after it. -/
theorem enter_on (bindings : List Binding) :
    (environment.on ground).enter bindings = (environment.enter bindings).on ground := rfl

/-- A variable may be declared before more ground is given or after it, since the ground comes first
    in its frame. -/
theorem declareVariable_on (binding : Binding) :
    (environment.on ground).declareVariable binding =
      (environment.declareVariable binding).on ground := by
  obtain ⟨innermost, enclosing⟩ := environment
  cases enclosing <;> simp [on, grounded, declareVariable, Frame.on]

/-- A function may be declared before more ground is given or after it, since the ground comes first
    in its frame. -/
theorem declareFunction_on (signature : Signature) :
    (environment.on ground).declareFunction signature =
      (environment.declareFunction signature).on ground := by
  obtain ⟨innermost, enclosing⟩ := environment
  cases enclosing <;> simp [on, grounded, declareFunction, Frame.on]

/-- Whatever the frames hold, nearest first, comes before what the ground holds. -/
theorem flatMap_frames_on {α : Type} {names : Frame → List α}
    (first : ∀ frame : Frame, names (frame.on ground) = names frame ++ names ground) :
    (environment.on ground).frames.flatMap names =
      environment.frames.flatMap names ++ names ground := by
  obtain ⟨innermost, enclosing⟩ := environment
  induction enclosing generalizing innermost with
  | nil => simp [on, grounded, frames, first]
  | cons outer enclosing ih =>
      have outside := ih outer
      change names innermost ++ (Environment.on ⟨outer, enclosing⟩ ground).frames.flatMap names =
        names innermost ++ (outer :: enclosing).flatMap names ++ names ground
      rw [outside, ← List.append_assoc]
      rfl

/-- A variable of the ground is found last, if no other one of its name is. -/
theorem binding?_on (name : String) :
    (environment.on ground).binding? name =
      (environment.binding? name).or
        (ground.bindings.reverse.find? fun binding => binding.name == name) := by
  rw [binding?_eq, flatMap_frames_on, List.find?_append, binding?_eq]
  exact fun frame => List.reverse_append

/-- A function of the ground is found last, if no other one of its name is. -/
theorem signature?_on (name : String) :
    (environment.on ground).signature? name =
      (environment.signature? name).or
        (ground.functions.reverse.find? fun signature => signature.name == name) := by
  rw [signature?_eq, flatMap_frames_on, List.find?_append, signature?_eq]
  exact fun frame => List.reverse_append

/-- The functions of the ground are listed first, so they come to be found last in the bodies of
    functions, too. -/
theorem visibleFunctions_on :
    (environment.on ground).visibleFunctions =
      ground.functions ++ environment.visibleFunctions := by
  apply List.reverse_injective
  rw [reverse_visibleFunctions, flatMap_frames_on, List.reverse_append, reverse_visibleFunctions]
  exact fun frame => List.reverse_append

/-- A function body sees the functions of the ground, and nothing else of it. -/
theorem isolated_on :
    seeded [] (environment.on ground).visibleFunctions =
      (seeded [] environment.visibleFunctions).on ⟨[], ground.functions⟩ := by
  rw [visibleFunctions_on]
  rfl

/-- In the outermost frame the name is none of the ground's variables. -/
def Open (name : String) : Prop :=
  environment.enclosing = [] → name ∉ ground.bindings.map Binding.name

/-- The ground counts for a declaration in the outermost frame only, and there it makes no
    difference if it does not have the name. -/
theorem declaredHere?_on {name : String} (free : environment.Open ground name) :
    (environment.on ground).declaredHere? name = environment.declaredHere? name := by
  obtain ⟨innermost, enclosing⟩ := environment
  cases enclosing with
  | cons outer enclosing => rfl
  | nil =>
      have absent : ground.bindings.find? (fun binding => binding.name == name) = none := by
        simpa using free rfl
      simp [on, grounded, Frame.on, declaredHere?, absent]

end Environment

/-! ## One-sided simulation -/

namespace Check

variable {α β γ δ : Type} {same : α → β → Prop}

/-- If the first check succeeds then so does the other one, at the same site and with a related
    value. -/
def Carries (same : α → β → Prop) (check : Check α) (other : Check β) : Prop :=
  ∀ site events value after, check site events = .ok value after → ∀ otherEvents,
    ∃ otherValue otherAfter, other site otherEvents = .ok otherValue otherAfter ∧
      same value otherValue

/-- Returning a value carries over to a related value. -/
theorem carries_pure {value : α} {other : β} (values : same value other) :
    Carries same (pure value) (pure other) := by
  intro site events result after run otherEvents
  cases run
  exact ⟨other, otherEvents, rfl, values⟩

/-- Nothing is asked of the other check if the first one gives up. -/
theorem carries_fail (line : Nat) (fault : TypingFault) {other : Check β} :
    Carries same (fail line fault) other := by
  intro site events result after run
  cases run

/-- Nothing comes after giving up, so such a check never succeeds and carries over to all others. -/
theorem carries_fail_then (line : Nat) (fault : TypingFault) (next : γ → Check α)
    {other : Check β} : Carries same (fail line fault >>= next) other := by
  intro site events result after run
  cases run

/-- A sequence carries over if its first part does, and its second part does for related values. -/
theorem carries_bind {check : Check α} {other : Check β} {next : α → Check γ}
    {otherNext : β → Check δ} {result : γ → δ → Prop} (first : Carries same check other)
    (second : ∀ value otherValue, same value otherValue →
      Carries result (next value) (otherNext otherValue)) :
    Carries result (check >>= next) (other >>= otherNext) := by
  intro site events value after run otherEvents
  obtain ⟨middle, between, here, onward⟩ := Traced.bind_ok_iff.mp run
  obtain ⟨otherMiddle, otherBetween, otherHere, values⟩ := first _ _ _ _ here otherEvents
  obtain ⟨final, last, otherOnward, results⟩ := second _ _ values _ _ _ _ onward otherBetween
  exact ⟨final, last, Traced.bind_ok_iff.mpr ⟨_, _, otherHere, otherOnward⟩, results⟩

/-- A check in a step carries over to one in a step of the same name. -/
theorem carries_step (name : String) {check : Check α} {other : Check β}
    (carries : Carries same check other) : Carries same (step name check) (step name other) :=
  fun _ => carries _

/-- The check of a function body carries over if it does inside of a function. -/
theorem carries_inFunction {check : Check α} {other : Check β}
    (carries : Carries same check other) :
    Carries same (withReader (fun site : Site => { site with inFunction := true }) check)
      (withReader (fun site : Site => { site with inFunction := true }) other) :=
  fun _ => carries _

/-- Reporting an event always succeeds, so it carries over to reporting any other. -/
theorem carries_report (event otherEvent : Event) :
    Carries (fun _ _ => True) (report event) (report otherEvent) :=
  fun _ _ _ _ _ _ => ⟨_, _, rfl, trivial⟩

/-- A check that does not look at any environment carries over to itself. -/
theorem carries_accepts (actual : StaticType) (expected : TypeName) :
    Carries Eq (accepts actual expected) (accepts actual expected) := by
  unfold accepts
  dsimp only
  split
  · exact carries_bind (carries_report _ _) fun _ _ _ => carries_pure rfl
  · exact carries_pure rfl

/-- Checks of all items of a list carry over if those of each item do, by induction on the list. -/
theorem carries_forM {items : List α} {check other : α → Check Unit}
    (each : ∀ item, Carries (fun _ _ => True) (check item) (other item)) :
    Carries (fun _ _ => True) (items.forM check) (items.forM other) := by
  induction items with
  | nil => exact carries_pure trivial
  | cons item items ih => exact carries_bind (each item) fun _ _ _ => ih

/-- Blocks that start out with one and the same variables carry over if what is in them does. -/
theorem carries_inBlock {environment other : Environment} (bindings : List Binding)
    {check otherCheck : Environment → Check Environment}
    (inside : Carries (fun _ _ => True) (check (environment.enter bindings))
      (otherCheck (other.enter bindings))) :
    Carries (fun _ _ => True) (inBlock environment bindings check)
      (inBlock other bindings otherCheck) := by
  refine carries_bind (carries_report _ _) fun _ _ _ => ?_
  have guarded : Carries (fun _ _ => True)
      (Check.guarded environment.depth (check (environment.enter bindings)))
      (Check.guarded other.depth (otherCheck (other.enter bindings))) := by
    intro site events value after run otherEvents
    change EStateM.tryCatch (check (environment.enter bindings) site) _ events =
      .ok value after at run
    unfold EStateM.tryCatch at run
    split at run
    · cases run
    · obtain ⟨otherValue, otherAfter, otherRun, -⟩ := inside _ _ _ _ run otherEvents
      refine ⟨otherValue, otherAfter, ?_, trivial⟩
      change EStateM.tryCatch (otherCheck (other.enter bindings) site) _ otherEvents = _
      rw [EStateM.tryCatch, otherRun]
  exact carries_bind guarded fun _ _ _ => carries_report _ _

/-! ## Values -/

variable (environment : Environment) (ground : Frame)

/-- The type of a leaf is the same on more ground, if it is found at all without. -/
theorem terminalType_on (token : Token) :
    Carries Eq (terminalType environment token) (terminalType (environment.on ground) token) := by
  unfold terminalType
  rw [Environment.binding?_on]
  cases token.kind
  case intLiteral => exact carries_pure rfl
  case stringLiteral => exact carries_pure rfl
  case boolLiteral => exact carries_pure rfl
  case nullLiteral => exact carries_pure rfl
  all_goals
    cases environment.binding? token.lexeme with
    | none => exact carries_fail _ _
    | some binding => exact carries_pure rfl

/-- What a leaf refers to is still found on more ground, and it is the same variable as without. -/
theorem reference_on (token : Token) :
    Carries (fun _ _ => True) (reference environment token)
      (reference (environment.on ground) token) := by
  unfold reference
  rw [Environment.binding?_on]
  cases environment.binding? token.lexeme with
  | some binding => simpa using carries_pure trivial
  | none =>
      split
      · exact carries_fail _ _
      · rename_i noName
        have noName : ¬ token.isIdentifier = true := by simpa using noName
        simpa [noName] using carries_pure trivial

/-- A callee that is found has the same signature on more ground, for what stood for something
    stands for the same. -/
theorem signatureOf_on (callee : Token) :
    Carries Eq (signatureOf environment callee) (signatureOf (environment.on ground) callee) := by
  unfold signatureOf
  cases Builtin.ofKind? callee.kind with
  | some builtin => exact carries_pure rfl
  | none =>
      simp only [Environment.signature?_on]
      cases environment.signature? callee.lexeme with
      | none => exact carries_fail _ _
      | some signature => exact carries_pure rfl

/-- A call has the same result on more ground, if its arguments carry over for all types that can be
    expected. -/
theorem callResult_on (callee : Token) (count : Nat) {arguments others : List TypeName → Check Unit}
    (inside : ∀ types, Carries (fun _ _ => True) (arguments types) (others types)) :
    Carries Eq (callResult environment callee count arguments)
      (callResult (environment.on ground) callee count others) := by
  apply carries_bind (signatureOf_on environment ground callee)
  rintro signature _ rfl
  have called : Carries Eq
      (do arguments signature.parameters; return StaticType.named signature.returns)
      (do others signature.parameters; return StaticType.named signature.returns) :=
    carries_bind (inside _) fun _ _ _ => carries_pure rfl
  by_cases counted : count ≠ signature.parameters.length
  · simp only [if_pos counted]
    exact carries_fail_then _ _ _
  · simp only [if_neg counted]
    exact called

mutual

/-- The type of a value is the same on more ground. The recursion goes through the arguments of
    calls. -/
theorem valueType_on :
    (value : Value) → Carries Eq (valueType environment value)
      (valueType (environment.on ground) value)
  | .terminal token => by
      simp only [valueType]
      exact terminalType_on environment ground token
  | .call callee arguments => by
      simp only [valueType]
      exact carries_step "call" (callResult_on environment ground callee _ fun expected =>
        argumentsFit_on callee.lexeme 1 arguments expected)

/-- Arguments that fit their types still do on more ground, one after another. -/
theorem argumentsFit_on (callee : String) (position : Nat) :
    (arguments : List Value) → (expected : List TypeName) →
      Carries (fun _ _ => True) (argumentsFit environment callee position arguments expected)
        (argumentsFit (environment.on ground) callee position arguments expected)
  | [], _ => by
      simp only [argumentsFit]
      exact carries_pure trivial
  | _ :: _, [] => by
      simp only [argumentsFit]
      exact carries_pure trivial
  | argument :: arguments, expected :: parameters => by
      simp only [argumentsFit]
      apply carries_bind (valueType_on argument)
      rintro actual _ rfl
      apply carries_bind (carries_accepts actual expected)
      rintro fits _ rfl
      cases fits with
      | true => exact argumentsFit_on callee (position + 1) arguments parameters
      | false => exact carries_fail _ _

end

/-- An expression that is accepted is accepted on more ground, for all of its operands are still
    found. -/
theorem expression_on (value : Expression) :
    Carries (fun _ _ => True) (Check.expression environment value)
      (Check.expression (environment.on ground) value) :=
  carries_step "expression" (carries_forM (reference_on environment ground))

/-- A condition that is accepted is accepted on more ground, on both sides. -/
theorem comparison_on (condition : Comparison) :
    Carries (fun _ _ => True) (Check.comparison environment condition)
      (Check.comparison (environment.on ground) condition) :=
  carries_step "comparison" (carries_forM (expression_on environment ground))

/-! ## Statements -/

/-- The walks go on in the same frames, the other one with more in the outermost frame. -/
def Onward (next other : Environment) : Prop :=
  other = next.on ground ∧ next.enclosing = environment.enclosing

/-- A declaration that is accepted is accepted on more ground, unless it stands in the outermost
    frame and the ground has its name already. -/
theorem declaration_on (name type : Token) (value : Value)
    (free : environment.Open ground name.lexeme) :
    Carries (Onward environment ground) (declaration environment name type value)
      (declaration (environment.on ground) name type value) := by
  have initialized : Carries (Onward environment ground)
      (do
        let actual ← valueType environment value
        if ← accepts actual type.lexeme then
          return environment.declareVariable ⟨name.lexeme, type.lexeme⟩
        else fail name.line (.declarationType name.lexeme type.lexeme actual.name))
      (do
        let actual ← valueType (environment.on ground) value
        if ← accepts actual type.lexeme then
          return (environment.on ground).declareVariable ⟨name.lexeme, type.lexeme⟩
        else fail name.line (.declarationType name.lexeme type.lexeme actual.name)) := by
    apply carries_bind (valueType_on environment ground value)
    rintro actual _ rfl
    apply carries_bind (carries_accepts actual type.lexeme)
    rintro fits _ rfl
    cases fits with
    | true => exact carries_pure ⟨Environment.declareVariable_on environment ground _, rfl⟩
    | false => exact carries_fail _ _
  simp only [declaration, Environment.declaredHere?_on environment ground free]
  cases environment.declaredHere? name.lexeme with
  | none => exact initialized
  | some existing => exact carries_fail_then _ _ _

/-- An assignment that is accepted is accepted on more ground, for its target is declared there as
    well. -/
theorem manipulation_on (target : Token) (value : Expression) :
    Carries (fun _ _ => True) (manipulation environment target value)
      (manipulation (environment.on ground) target value) := by
  simp only [manipulation, Environment.binding?_on]
  cases environment.binding? target.lexeme with
  | some binding => exact expression_on environment ground value
  | none => exact carries_fail_then _ _ _

/-- A return statement that is accepted is accepted on more ground, as being in a function does not
    depend on it. -/
theorem returnValue_on (keyword value : Token) :
    Carries (fun _ _ => True) (returnValue environment keyword value)
      (returnValue (environment.on ground) keyword value) := by
  rintro ⟨trail, inFunction⟩
  cases inFunction with
  | true => exact reference_on environment ground value ⟨trail, true⟩
  | false =>
      intro events result after run
      cases run

/-- A step after which both walks are where they were goes on from there, the other one on more
    ground. -/
theorem carries_unchanged {check other : Check Unit}
    (carries : Carries (fun _ _ => True) check other) :
    Carries (Onward environment ground) (do check; return environment)
      (do other; return environment.on ground) :=
  carries_bind carries fun _ _ _ => carries_pure ⟨rfl, rfl⟩

section Statements

variable {environment ground} {hoisted otherHoisted : Nat → Nat → Environment → Check Environment}

/-- Placeholders are accepted on more ground as well. -/
def HoistedOn (ground : Frame)
    (hoisted otherHoisted : Nat → Nat → Environment → Check Environment) : Prop :=
  ∀ index line environment, Carries (Onward environment ground) (hoisted index line environment)
    (otherHoisted index line (environment.on ground))

/-- None of the variables that the statements declare is one of the ground's in the outermost
    frame. -/
def OpenTo (environment : Environment) (ground : Frame) (statements : List Statement) : Prop :=
  ∀ binding ∈ declaredIn statements, environment.Open ground binding.name

/-- In a block, the outermost frame is another one, so nothing that is declared there can clash with
    the ground. -/
theorem openTo_enter (environment : Environment) (ground : Frame) (bindings : List Binding)
    (statements : List Statement) : OpenTo (environment.enter bindings) ground statements :=
  fun _ _ outermost => nomatch outermost

/-- If statements are open to the ground, the first of them is, and so are the others. -/
theorem openTo_cons {first : Statement} {later : List Statement}
    (free : OpenTo environment ground (first :: later)) :
    OpenTo environment ground [first] ∧ OpenTo environment ground later := by
  have split := declaredIn_append [first] later
  rw [List.singleton_append] at split
  rw [OpenTo, split] at free
  exact List.forall_mem_append.mp free

mutual

/-- A statement that is accepted is accepted on more ground. The recursion is on the statement, its
    blocks and its branches together. -/
theorem statement_on (placed : HoistedOn ground hoisted otherHoisted) (environment : Environment) :
    (statement : Statement) → OpenTo environment ground [statement] →
      Carries (Onward environment ground) (Check.statement hoisted environment statement)
        (Check.statement otherHoisted (environment.on ground) statement)
  | .forRange keyword counter start stop body, _ => by
      simp only [Check.statement]
      apply carries_unchanged
      apply carries_step
      apply carries_bind (reference_on environment ground start)
      intro _ _ _
      apply carries_bind (reference_on environment ground stop)
      intro _ _ _
      exact carries_inBlock _ (block_on placed environment _ body)
  | .whileLoop keyword condition body, _ => by
      simp only [Check.statement]
      apply carries_unchanged
      apply carries_step
      apply carries_bind (comparison_on environment ground condition)
      intro _ _ _
      exact carries_inBlock _ (block_on placed environment _ body)
  | .ifChain list none, _ => by
      simp only [Check.statement]
      apply carries_unchanged
      apply carries_step
      exact carries_bind (branches_on placed environment list) fun _ _ _ => carries_pure trivial
  | .ifChain list (some body), _ => by
      simp only [Check.statement]
      apply carries_unchanged
      apply carries_step
      apply carries_bind (branches_on placed environment list)
      intro _ _ _
      exact carries_inBlock _ (block_on placed environment _ body)
  | .declaration name type value, free => by
      simp only [Check.statement]
      exact carries_step _ (declaration_on environment ground name type value
        (free ⟨name.lexeme, type.lexeme⟩ (by simp [declaredIn])))
  | .manipulation target value, _ => by
      simp only [Check.statement]
      exact carries_unchanged environment ground
        (carries_step _ (manipulation_on environment ground target value))
  | .call callee arguments, _ => by
      simp only [Check.statement]
      have result := callResult_on environment ground callee arguments.length fun expected =>
        argumentsFit_on environment ground callee.lexeme 1 arguments expected
      exact carries_bind (carries_step _ result) fun _ _ _ => carries_pure ⟨rfl, rfl⟩
  | .returnValue keyword value, _ => by
      simp only [Check.statement]
      exact carries_unchanged environment ground
        (carries_step _ (returnValue_on environment ground keyword value))
  | .hoisted index line, _ => by
      simp only [Check.statement]
      exact carries_step _ (placed index line environment)

/-- A block of its own that is accepted is accepted on more ground, without any condition on the
    names declared in it. -/
theorem block_on (placed : HoistedOn ground hoisted otherHoisted) (environment : Environment)
    (bindings : List Binding) :
    (body : Block Statement) →
      Carries (fun _ _ => True) (block hoisted (environment.enter bindings) body)
        (block otherHoisted ((environment.on ground).enter bindings) body)
  | ⟨line, list⟩ => by
      simp only [block, Environment.enter_on]
      intro site events value after run otherEvents
      obtain ⟨other, otherAfter, otherRun, -⟩ :=
        statements_on placed (environment.enter bindings) list (openTo_enter _ _ _ _) site events
          value after run otherEvents
      exact ⟨other, otherAfter, otherRun, trivial⟩

/-- Branches that are accepted are accepted on more ground, each with its condition and its
    block. -/
theorem branches_on (placed : HoistedOn ground hoisted otherHoisted) (environment : Environment) :
    (list : List (Branch Statement)) →
      Carries (fun _ _ => True) (branches hoisted environment list)
        (branches otherHoisted (environment.on ground) list)
  | [] => by
      simp only [branches]
      exact carries_pure trivial
  | ⟨keyword, condition, body⟩ :: later => by
      simp only [branches]
      apply carries_bind (comparison_on environment ground condition)
      intro _ _ _
      apply carries_bind (carries_inBlock _ (block_on placed environment _ body))
      intro _ _ _
      exact branches_on placed environment later

/-- A list of statements that is accepted is accepted on more ground, if it is open to it. Both
    walks end in the same frames up to the ground. -/
theorem statements_on (placed : HoistedOn ground hoisted otherHoisted) (environment : Environment) :
    (list : List Statement) → OpenTo environment ground list →
      Carries (fun next other => other = next.on ground) (statements hoisted environment list)
        (statements otherHoisted (environment.on ground) list)
  | [], _ => by
      simp only [statements]
      exact carries_pure rfl
  | first :: later, free => by
      simp only [statements]
      apply carries_bind (statement_on placed environment first (openTo_cons free).1)
      rintro next _ ⟨rfl, frames⟩
      exact statements_on placed next later fun binding declared outermost =>
        (openTo_cons free).2 binding declared (frames.symm.trans outermost)

end

end Statements

/-- A placeholder is accepted on more ground. Of that ground the body sees the functions only. -/
theorem definition_on (functions : List Definition) (bound : Nat) (ground : Frame) :
    HoistedOn ground (definition functions bound) (definition functions bound) := by
  induction bound generalizing ground with
  | zero => exact fun index line environment => carries_fail _ _
  | succ bound ih =>
      intro index line environment
      rw [definition_succ]
      simp only [entered]
      cases functions[index]? with
      | none => exact carries_fail _ _
      | some definition =>
          simp only [Environment.declareFunction_on, Environment.isolated_on]
          refine carries_bind (carries_inFunction (carries_inBlock _ ?_)) fun _ _ _ =>
            carries_pure ⟨rfl, rfl⟩
          exact block_on (ih _) _ _ definition.body

end Check

/-! ## Whole programs -/

/-- Statements that are accepted declare no variable that their frame had before them. -/
theorem fresh_statements {functions : List Definition}
    {hoisted : Nat → Nat → Environment → Check Environment}
    (declares : Check.Declares functions hoisted) {environment last : Environment}
    {statements : List Statement}
    (gives : Check.Gives (Check.statements hoisted environment statements) last) :
    ∀ binding ∈ declaredIn statements,
      binding.name ∉ environment.innermost.bindings.map Binding.name := by
  induction statements generalizing environment with
  | nil => exact List.forall_mem_nil _
  | cons first later ih =>
      rw [Check.statements] at gives
      obtain ⟨next, here, onward⟩ := Check.gives_bind gives
      obtain ⟨rfl, fresh⟩ := Check.gives_statement declares here
      rw [← List.singleton_append, declaredIn_append]
      refine List.forall_mem_append.mpr ⟨fresh, fun binding declared before => ?_⟩
      refine ih onward binding declared ?_
      rw [Environment.past, List.map_append]
      exact List.mem_append_left _ before

/-- A program that is accepted stays so with more names given from outside, exactly if the list
    of its own statements declares none of the additional variables. Additional functions, and
    variables that are declared inside blocks or function bodies only, make no difference. -/
theorem analyze_more_iff {program : Program} {bindings : List Binding}
    {functions : List Signature}
    (accepted : (program.analyze bindings functions).outcome = .ok ()) (more : List Binding)
    (moreFunctions : List Signature) :
    (program.analyze (more ++ bindings) (moreFunctions ++ functions)).outcome = .ok () ↔
      ∀ binding ∈ more, binding.name ∉ (declaredIn program.body).map Binding.name := by
  have declares := Check.declares_definition program.functions
  simp only [Traced.outcome_ok_iff, Program.analyze, Traced.bind_ok_iff] at accepted ⊢
  constructor
  · rintro ⟨_, last, between, walked, -⟩ binding isMore isDeclared
    obtain ⟨declared, isDeclared, same⟩ := List.mem_map.mp isDeclared
    refine fresh_statements (declares _) ⟨_, _, between, walked⟩ declared isDeclared ?_
    rw [same]
    exact List.mem_map_of_mem (List.mem_append_left bindings isMore)
  · intro free
    obtain ⟨_, last, between, walked, -⟩ := accepted
    have placed := Check.definition_on program.functions program.definitionBound
      ⟨more, moreFunctions⟩
    have isFree : Check.OpenTo (.seeded bindings functions) ⟨more, moreFunctions⟩ program.body := by
      intro declared isDeclared _ isMore
      obtain ⟨binding, isMore, same⟩ := List.mem_map.mp isMore
      exact free binding isMore (same ▸ List.mem_map_of_mem isDeclared)
    obtain ⟨other, otherBetween, otherWalked, -⟩ :=
      Check.statements_on placed _ program.body isFree _ _ _ _ walked #[]
    exact ⟨_, other, otherBetween, otherWalked, rfl⟩

/-- A function body and a block that declare `y`, with `x` and `g` from outside. A variable `y`,
    another `x` and functions called `g` and `f` are given in addition. -/
theorem analyze_more_iff_shadowed :
    let word (kind : Kind) (lexeme : String) (line : Nat) : Token := ⟨kind, lexeme, line⟩
    let name (lexeme : String) (line : Nat) : Token := word .identifier lexeme line
    let initialized (callee : String) (line : Nat) : Statement :=
      .declaration (name "y" line) (name "int" line)
        (.call (name callee line) [.terminal (name "x" line)])
    let program : Program :=
      ⟨⟨name "GoType" 1, none, 1⟩,
        [.hoisted 0 2,
          .ifChain [⟨word .ifWord "if" 5, ⟨⟨name "x" 5, none⟩, none⟩, ⟨5, [initialized "f" 6]⟩⟩]
            none],
        [⟨word .defWord "def" 2, name "f" 2, [⟨name "x" 2, name "int" 2⟩], some (name "int" 2),
          ⟨2, [initialized "g" 3, .returnValue (word .returnWord "return" 4) (name "y" 4)]⟩⟩]⟩
    let functions : List Signature := [⟨"g", ["int"], "int"⟩]
    (program.analyze [⟨"x", "int"⟩] functions).outcome = .ok () ∧
      (program.analyze ([⟨"y", "bool"⟩, ⟨"x", "string"⟩] ++ [⟨"x", "int"⟩])
        ([⟨"g", [], "null"⟩, ⟨"f", [], "null"⟩] ++ functions)).outcome = .ok () := by
  intro word name initialized program functions
  have accepted : (program.analyze [⟨"x", "int"⟩] functions).outcome = .ok () := by cbv
  exact ⟨accepted, (analyze_more_iff accepted _ _).mpr (by decide)⟩

end Offside
