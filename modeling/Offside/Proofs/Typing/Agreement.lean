import Offside.Proofs.Syntax.Matching
import Offside.Proofs.Traced
import Offside.Proofs.Typing.Walk

/-!
# Checking side by side

Static analysis looks at the kinds and the texts of the leaves of a tree, and matching
trees have the same ones. So their checks go through the same environments and end
alike: both succeed, or both fail with the same fault on matching lines.

A fault shows names in its wording. They are the texts of leaves, or type names that the
rules bring in, which is what `Matching.Spells` says; environments hold no others.
-/

namespace Offside

open Grammar

/-- The names that the wording of a fault shows. -/
def TypingFault.names : TypingFault → List String
  | undeclaredTarget name | undeclaredVariable name | undeclaredFunction name => [name]
  | argumentCount callee _ _ => [callee]
  | argumentType _ callee expected actual => [callee, expected, actual]
  | declarationType name declared actual => [name, declared, actual]
  | redeclaration name existing => [name, existing]
  | missingDefinition _ | returnOutsideFunction | endlessDefinition _ => []

/-- The type names that need no token. -/
def TypeName.own : List TypeName :=
  [.any, .null, .int, .string, .bool]

variable (matching : Matching)

/-- The name of a type that needs no token, or the text of a token with a partner. -/
def Matching.Spells (name : String) : Prop :=
  name ∈ TypeName.own ∨ ∃ token other, matching.token token other ∧ token.lexeme = name

def Signature.Spelled (signature : Signature) : Prop :=
  ∀ type ∈ signature.returns :: signature.parameters, matching.Spells type

/-- All types that the environment knows of are spelled. -/
structure Environment.Spelled (environment : Environment) : Prop where
  bindings : ∀ frame ∈ environment.frames, ∀ binding ∈ frame.bindings,
    matching.Spells binding.type
  functions : ∀ frame ∈ environment.frames, ∀ signature ∈ frame.functions,
    signature.Spelled matching

namespace Check

/-- The names of the statements and of their parts on a trail. -/
def steps : List String :=
  ["declaration", "manipulation", "call", "for", "while", "if", "return", "function",
    "expression", "comparison"]

variable {α β γ δ : Type}

/-- The failures report one fault on matching lines, met at the steps of the trail or
    inside them, and its wording shows spelled names. -/
def FaultedAlike (trail : List String) (failure other : Failure) : Prop :=
  ∃ inner line otherLine fault,
    failure = .analysis fault.rule ⟨trail ++ inner, line, TypingFault.message fault⟩ ∧
      other = .analysis fault.rule ⟨trail ++ inner, otherLine, TypingFault.message fault⟩ ∧
        inner ⊆ steps ∧ matching.line line otherLine ∧
          ∀ name ∈ fault.names, matching.Spells name

/-- The failures are met inside a statement. -/
def FaultedInside (trail : List String) (failure other : Failure) : Prop :=
  ∃ name ∈ steps, FaultedAlike matching (trail ++ [name]) failure other

/-- At every site the checks have related results. -/
def Agree (alike : List String → Failure → Failure → Prop) (same : α → β → Prop)
    (check : Check α) (other : Check β) : Prop :=
  ∀ site, Traced.Agree (alike site.trail) same (check site) (other site)

variable {matching} {alike : List String → Failure → Failure → Prop} {same : α → β → Prop}

/-! ## Putting checks together -/

/-- A failure inside a statement is one on the trail around it, since the name of the statement may
    count as further in. -/
theorem FaultedInside.outward {trail : List String} {failure other : Failure}
    (inside : FaultedInside matching trail failure other) :
    FaultedAlike matching trail failure other := by
  obtain ⟨name, known, inner, line, otherLine, fault, reported, otherReported, named, lines,
    names⟩ := inside
  rw [List.append_assoc] at reported otherReported
  exact ⟨_, line, otherLine, fault, reported, otherReported,
    List.cons_subset.mpr ⟨known, named⟩, lines, names⟩

/-- Returning related values is agreement at every site, for it cannot fail. -/
theorem agree_pure {value : α} {other : β} (values : same value other) :
    Agree alike same (pure value) (pure other) :=
  fun _ => Traced.agree_pure values

/-- Checks one after another agree if the first ones do and the second ones do on related values. -/
theorem agree_bind {check : Check α} {other : Check β} {next : α → Check γ}
    {otherNext : β → Check δ} {result : γ → δ → Prop} (first : Agree alike same check other)
    (second : ∀ value otherValue, same value otherValue →
      Agree alike result (next value) (otherNext otherValue)) :
    Agree alike result (check >>= next) (other >>= otherNext) :=
  fun site => Traced.agree_bind (first site) fun value otherValue values =>
    second value otherValue values site

/-- Checks that agree inside a statement agree around it, where their failures may be met further
    in. -/
theorem Agree.outward {check : Check α} {other : Check β}
    (agree : Agree (FaultedInside matching) same check other) :
    Agree (FaultedAlike matching) same check other :=
  fun site => (agree site).mono (·.outward) id

/-- Checks that agree still do so inside a step of one name, and their failures are then met inside
    a statement. -/
theorem agree_step {name : String} (known : name ∈ steps) {check : Check α} {other : Check β}
    (agree : Agree (FaultedAlike matching) same check other) :
    Agree (FaultedInside matching) same (step name check) (step name other) :=
  fun _ => (agree _).mono (fun failures => ⟨name, known, failures⟩) id

/-- Reporting events makes no difference to agreement, whichever events these are on the two
    sides. -/
theorem agree_report (event otherEvent : Event) :
    Agree alike (fun _ _ => True) (report event) (report otherEvent) :=
  fun _ => Traced.agree_report event otherEvent

/-- Checks that fail with the same fault agree if the lines match and every name in the wording is
    spelled. -/
theorem agree_fail {line otherLine : Nat} {fault : TypingFault}
    (lines : matching.line line otherLine) (names : ∀ name ∈ fault.names, matching.Spells name) :
    Agree (FaultedAlike matching) same (fail line fault) (fail otherLine fault) :=
  fun _ => Traced.agree_throw
    ⟨[], line, otherLine, fault, by rw [List.append_nil], by rw [List.append_nil],
      List.nil_subset _, lines, names⟩

/-- Blocks agree if what is inside them does, whatever the two environments are. -/
theorem agree_inBlock {environment otherEnvironment : Environment}
    {bindings otherBindings : List Binding} {check other : Environment → Check Environment}
    (agree : Agree alike (fun _ _ => True) (check (environment.enter bindings))
      (other (otherEnvironment.enter otherBindings))) :
    Agree alike (fun _ _ => True) (inBlock environment bindings check)
      (inBlock otherEnvironment otherBindings other) := by
  refine agree_bind (agree_report _ _) fun _ _ _ => ?_
  have attempt : Agree alike (fun _ _ => True)
      (tryCatch (check (environment.enter bindings)) fun failure => do
        report (.leftScope environment.depth)
        throw failure)
      (tryCatch (other (otherEnvironment.enter otherBindings)) fun failure => do
        report (.leftScope otherEnvironment.depth)
        throw failure) := by
    intro site
    refine Traced.agree_tryCatch (agree site) fun failure otherFailure failures => ?_
    exact Traced.agree_bind (Traced.agree_report _ _) fun _ _ _ => Traced.agree_throw failures
  exact agree_bind attempt fun _ _ _ => agree_report _ _

end Check

/-! ## Environments -/

variable {matching} {environment : Environment}

/-- The text of a token with a partner is spelled, as the partner has the same one. -/
theorem Matching.spells {token other : Token} (matched : matching.token token other) :
    matching.Spells token.lexeme :=
  .inr ⟨token, other, matched, rfl⟩

namespace Environment.Spelled

/-- The type of a variable that is found in the innermost frame is spelled, if all types are that
    the environment knows of. -/
theorem declaredHere? (spelled : environment.Spelled matching) {name : String}
    {binding : Binding} (found : environment.declaredHere? name = some binding) :
    matching.Spells binding.type :=
  spelled.bindings _ List.mem_cons_self _ (List.mem_of_find?_eq_some found)

/-- The type of a variable that is found in any frame is spelled, if all types are that the
    environment knows of. -/
theorem binding? (spelled : environment.Spelled matching) {name : String} {binding : Binding}
    (found : environment.binding? name = some binding) : matching.Spells binding.type := by
  obtain ⟨frame, isFrame, inFrame⟩ := List.exists_of_findSome?_eq_some found
  exact spelled.bindings frame isFrame binding
    (List.mem_reverse.mp (List.mem_of_find?_eq_some inFrame))

/-- The types of a function that is found are spelled, its result as well as its parameters. -/
theorem signature? (spelled : environment.Spelled matching) {name : String}
    {signature : Signature} (found : environment.signature? name = some signature) :
    signature.Spelled matching := by
  obtain ⟨frame, isFrame, inFrame⟩ := List.exists_of_findSome?_eq_some found
  exact spelled.functions frame isFrame signature
    (List.mem_reverse.mp (List.mem_of_find?_eq_some inFrame))

/-- Types stay spelled in a new frame, if those of the variables that it starts with are. -/
theorem enter (spelled : environment.Spelled matching) {bindings : List Binding}
    (types : ∀ binding ∈ bindings, matching.Spells binding.type) :
    (environment.enter bindings).Spelled matching where
  bindings := List.forall_mem_cons.mpr ⟨types, spelled.bindings⟩
  functions := List.forall_mem_cons.mpr ⟨List.forall_mem_nil _, spelled.functions⟩

/-- The types of an environment stay spelled when a variable is declared whose type is spelled. -/
theorem declareVariable (spelled : environment.Spelled matching) {binding : Binding}
    (type : matching.Spells binding.type) :
    (environment.declareVariable binding).Spelled matching where
  bindings := by
    have before := List.forall_mem_cons.mp spelled.bindings
    refine List.forall_mem_cons.mpr ⟨?_, before.2⟩
    exact List.forall_mem_append.mpr ⟨before.1, List.forall_mem_singleton.mpr type⟩
  functions := List.forall_mem_cons.mpr (List.forall_mem_cons.mp spelled.functions)

/-- The types of an environment stay spelled when a function is declared all of whose types are
    spelled. -/
theorem declareFunction (spelled : environment.Spelled matching) {signature : Signature}
    (types : signature.Spelled matching) :
    (environment.declareFunction signature).Spelled matching where
  bindings := List.forall_mem_cons.mpr (List.forall_mem_cons.mp spelled.bindings)
  functions := by
    have before := List.forall_mem_cons.mp spelled.functions
    refine List.forall_mem_cons.mpr ⟨?_, before.2⟩
    exact List.forall_mem_append.mpr ⟨before.1, List.forall_mem_singleton.mpr types⟩

/-- The environment of a function body before its parameters has spelled types, for it keeps the
    visible functions only. -/
theorem isolated (spelled : environment.Spelled matching) :
    (Environment.seeded [] environment.visibleFunctions).Spelled matching where
  bindings := List.forall_mem_singleton.mpr (List.forall_mem_nil _)
  functions := by
    refine List.forall_mem_singleton.mpr fun signature visible => ?_
    obtain ⟨frame, isFrame, inFrame⟩ := List.mem_flatMap.mp visible
    exact spelled.functions frame (List.mem_reverse.mp isFrame) signature inFrame

end Environment.Spelled

namespace Check

/-! ## Values -/

variable {token other : Token}

/-- The types are the same one, which is spelled. -/
def SameType (matching : Matching) (type other : StaticType) : Prop :=
  type = other ∧ matching.Spells type.name

/-- The types of leaves that match are the same one. A name has the same type on both sides, and a
    literal of one kind has the type of this kind. -/
theorem terminalType_agrees (spelled : environment.Spelled matching)
    (matched : matching.token token other) :
    Agree (FaultedAlike matching) (SameType matching) (terminalType environment token)
      (terminalType environment other) := by
  unfold terminalType
  rw [← matching.same_kind matched, ← matching.same_lexeme matched]
  cases token.kind
  case intLiteral => exact agree_pure ⟨rfl, .inl (by decide)⟩
  case stringLiteral => exact agree_pure ⟨rfl, .inl (by decide)⟩
  case boolLiteral => exact agree_pure ⟨rfl, .inl (by decide)⟩
  case nullLiteral => exact agree_pure ⟨rfl, .inl (by decide)⟩
  all_goals
    cases found : environment.binding? token.lexeme with
    | some binding => exact agree_pure ⟨rfl, spelled.binding? found⟩
    | none =>
        exact agree_fail (matching.same_line matched)
          (List.forall_mem_singleton.mpr (Matching.spells matched))

/-- Looking up what a leaf refers to agrees, since names that match are one name. -/
theorem reference_agrees (environment : Environment) (matched : matching.token token other) :
    Agree (FaultedAlike matching) (fun _ _ => True) (reference environment token)
      (reference environment other) := by
  unfold reference Token.isIdentifier
  rw [← matching.same_kind matched, ← matching.same_lexeme matched]
  split
  · exact agree_fail (matching.same_line matched)
      (List.forall_mem_singleton.mpr (Matching.spells matched))
  · exact agree_pure trivial

/-- Whether a value fits its type is settled without a fault, by the two types alone. -/
theorem accepts_agrees (actual : StaticType) (expected : TypeName) :
    Agree alike Eq (accepts actual expected) (accepts actual expected) := by
  by_cases widened : actual.compatibility expected = .widened
  · simp only [accepts, if_pos widened]
    exact agree_bind (agree_report _ _) fun _ _ _ => agree_pure rfl
  · simp only [accepts, if_neg widened]
    exact agree_pure rfl

/-- The types of a builtin function need no token, so they are spelled. -/
theorem builtin_spelled {kind : Kind} {builtin : Builtin}
    (found : Builtin.ofKind? kind = some builtin) : builtin.signature.Spelled matching := by
  have known : ∀ builtin ∈ Builtin.all, ∀ type ∈ builtin.signature.returns ::
      builtin.signature.parameters, type ∈ TypeName.own := by decide
  intro type listed
  exact .inl (known builtin (List.mem_of_find?_eq_some found) type listed)

/-- Callees that match have the same signature or are not found on either side. It is that of a
    builtin function or comes from the environment. -/
theorem signatureOf_agrees (spelled : environment.Spelled matching)
    (matched : matching.token token other) :
    Agree (FaultedAlike matching)
      (fun signature otherSignature =>
        signature = otherSignature ∧ signature.Spelled matching)
      (signatureOf environment token) (signatureOf environment other) := by
  unfold signatureOf
  rw [← matching.same_kind matched, ← matching.same_lexeme matched]
  cases builtIn : Builtin.ofKind? token.kind with
  | some builtin => exact agree_pure ⟨rfl, builtin_spelled builtIn⟩
  | none =>
      cases found : environment.signature? token.lexeme with
      | some signature => exact agree_pure ⟨rfl, spelled.signature? found⟩
      | none =>
          exact agree_fail (matching.same_line matched)
            (List.forall_mem_singleton.mpr (Matching.spells matched))

/-- Calls of matching callees with as many arguments agree, if their arguments do for all types that
    can be expected. -/
theorem callResult_agrees (spelled : environment.Spelled matching)
    (matched : matching.token token other) (count : Nat)
    {arguments others : List TypeName → Check Unit}
    (inside : ∀ types, (∀ type ∈ types, matching.Spells type) →
      Agree (FaultedAlike matching) (fun _ _ => True) (arguments types) (others types)) :
    Agree (FaultedAlike matching) (SameType matching)
      (callResult environment token count arguments)
      (callResult environment other count others) := by
  refine agree_bind (signatureOf_agrees spelled matched) fun signature _ signatures => ?_
  obtain ⟨rfl, types⟩ := signatures
  have called : Agree (FaultedAlike matching) (SameType matching)
      (do arguments signature.parameters; return StaticType.named signature.returns)
      (do others signature.parameters; return StaticType.named signature.returns) :=
    agree_bind (inside _ fun type listed => types type (List.mem_cons_of_mem _ listed))
      fun _ _ _ => agree_pure ⟨rfl, types _ List.mem_cons_self⟩
  rw [← matching.same_lexeme matched]
  by_cases counted : count ≠ signature.parameters.length
  · simp only [if_pos counted]
    have miscounted : Agree (FaultedAlike matching) (fun _ _ => True)
        (fail token.line (.argumentCount token.lexeme signature.parameters.length count) :
          Check PUnit)
        (fail other.line (.argumentCount token.lexeme signature.parameters.length count) :
          Check PUnit) :=
      agree_fail (matching.same_line matched)
        (List.forall_mem_singleton.mpr (Matching.spells matched))
    exact agree_bind miscounted fun _ _ _ => called
  · simp only [if_neg counted]
    exact called

/-- Values that match are on matching lines, each on that of its first leaf. -/
theorem value_same_line {value otherValue : Value}
    (matched : value.Matches matching otherValue) :
    matching.line value.line otherValue.line := by
  cases matched with
  | terminal leaf => exact matching.same_line leaf
  | call name inside => exact matching.same_line name

mutual

/-- The types of values that match are the same one, or both values have the same fault. The
    recursion goes through the arguments of calls. -/
theorem valueType_agrees (spelled : environment.Spelled matching) {value otherValue : Value} :
    value.Matches matching otherValue →
      Agree (FaultedAlike matching) (SameType matching) (valueType environment value)
        (valueType environment otherValue)
  | .terminal leaf => by
      simp only [valueType]
      exact terminalType_agrees spelled leaf
  | .call name inside => by
      simp only [valueType]
      rw [← inside.length_eq, ← matching.same_lexeme name]
      exact (agree_step (by decide) (callResult_agrees spelled name _ fun types known =>
        argumentsFit_agrees spelled (Matching.spells name) 1 inside known)).outward

/-- Lists of arguments that match fit the same types or do not, with the same fault in the same
    position. -/
theorem argumentsFit_agrees (spelled : environment.Spelled matching) {callee : String}
    (called : matching.Spells callee) (position : Nat) {arguments others : List Value} :
    List.Forall₂ (Value.Matches matching) arguments others →
      ∀ {types : List TypeName}, (∀ type ∈ types, matching.Spells type) →
        Agree (FaultedAlike matching) (fun _ _ => True)
          (argumentsFit environment callee position arguments types)
          (argumentsFit environment callee position others types)
  | .nil, _, _ => by
      simp only [argumentsFit]
      exact agree_pure trivial
  | .cons first later, [], _ => by
      simp only [argumentsFit]
      exact agree_pure trivial
  | .cons first later, expected :: types, known => by
      obtain ⟨spells, known⟩ := List.forall_mem_cons.mp known
      simp only [argumentsFit]
      refine agree_bind (valueType_agrees spelled first) fun actual _ actuals => ?_
      obtain ⟨rfl, spellsActual⟩ := actuals
      refine agree_bind (accepts_agrees actual expected) fun fits _ same => ?_
      subst same
      cases fits with
      | true => exact argumentsFit_agrees spelled called (position + 1) later known
      | false =>
          exact agree_fail (value_same_line first) (by
            simp only [TypingFault.names, List.forall_mem_cons]
            exact ⟨called, spells, spellsActual, List.forall_mem_nil _⟩)

end

/-! ## Statements -/

/-- The environments are the same one, all of whose types are spelled. -/
def SameScope (matching : Matching) (environment other : Environment) : Prop :=
  environment = other ∧ environment.Spelled matching

/-- Expressions that match are checked alike, operand by operand. -/
theorem expression_agrees (environment : Environment) {value otherValue : Expression}
    (matched : value.Matches matching otherValue) :
    Agree (FaultedAlike matching) (fun _ _ => True) (expression environment value)
      (expression environment otherValue) := by
  obtain ⟨left, tail⟩ := value
  obtain ⟨otherLeft, otherTail⟩ := otherValue
  obtain ⟨lefts, tails⟩ := matched
  refine Agree.outward (agree_step (by decide) ?_)
  cases tails with
  | none =>
      exact agree_bind (reference_agrees environment lefts) fun _ _ _ => agree_pure trivial
  | some tails =>
      exact agree_bind (reference_agrees environment lefts) fun _ _ _ =>
        agree_bind (reference_agrees environment tails.2) fun _ _ _ => agree_pure trivial

/-- Conditions that match are checked alike, first one side and then the other. -/
theorem comparison_agrees (environment : Environment) {condition otherCondition : Comparison}
    (matched : condition.Matches matching otherCondition) :
    Agree (FaultedAlike matching) (fun _ _ => True) (comparison environment condition)
      (comparison environment otherCondition) := by
  obtain ⟨left, tail⟩ := condition
  obtain ⟨otherLeft, otherTail⟩ := otherCondition
  obtain ⟨lefts, tails⟩ := matched
  refine Agree.outward (agree_step (by decide) ?_)
  cases tails with
  | none =>
      exact agree_bind (expression_agrees environment lefts) fun _ _ _ => agree_pure trivial
  | some tails =>
      exact agree_bind (expression_agrees environment lefts) fun _ _ _ =>
        agree_bind (expression_agrees environment tails.2) fun _ _ _ => agree_pure trivial

/-- Declarations that match are checked alike, and both sides go on in the same environment with one
    more variable. -/
theorem declaration_agrees (spelled : environment.Spelled matching)
    {name type otherName otherType : Token} {value otherValue : Value}
    (named : matching.token name otherName) (typed : matching.token type otherType)
    (initial : value.Matches matching otherValue) :
    Agree (FaultedAlike matching) (SameScope matching) (declaration environment name type value)
      (declaration environment otherName otherType otherValue) := by
  have initialized : Agree (FaultedAlike matching) (SameScope matching)
      (do
        let actual ← valueType environment value
        if ← accepts actual type.lexeme then
          return environment.declareVariable ⟨name.lexeme, type.lexeme⟩
        else fail name.line (.declarationType name.lexeme type.lexeme actual.name))
      (do
        let actual ← valueType environment otherValue
        if ← accepts actual type.lexeme then
          return environment.declareVariable ⟨name.lexeme, type.lexeme⟩
        else fail otherName.line (.declarationType name.lexeme type.lexeme actual.name)) := by
    refine agree_bind (valueType_agrees spelled initial) fun actual _ actuals => ?_
    obtain ⟨rfl, spellsActual⟩ := actuals
    refine agree_bind (accepts_agrees actual type.lexeme) fun fits _ same => ?_
    subst same
    cases fits with
    | true => exact agree_pure ⟨rfl, spelled.declareVariable (Matching.spells typed)⟩
    | false =>
        refine agree_fail (matching.same_line named) ?_
        simp only [TypingFault.names, List.forall_mem_cons]
        exact ⟨Matching.spells named, Matching.spells typed, spellsActual, List.forall_mem_nil _⟩
  unfold declaration
  rw [← matching.same_lexeme named, ← matching.same_lexeme typed]
  cases found : environment.declaredHere? name.lexeme with
  | none => exact initialized
  | some existing =>
      have redeclared : Agree (FaultedAlike matching) (fun _ _ => True)
          (fail name.line (.redeclaration name.lexeme existing.type) : Check PUnit)
          (fail otherName.line (.redeclaration name.lexeme existing.type) : Check PUnit) := by
        refine agree_fail (matching.same_line named) ?_
        simp only [TypingFault.names, List.forall_mem_cons]
        exact ⟨Matching.spells named, spelled.declaredHere? found, List.forall_mem_nil _⟩
      exact agree_bind redeclared fun _ _ _ => initialized

/-- Assignments that match are checked alike: the name is declared on both sides or on neither, and
    the expressions agree. -/
theorem manipulation_agrees (environment : Environment) {target otherTarget : Token}
    {value otherValue : Expression} (named : matching.token target otherTarget)
    (assigned : value.Matches matching otherValue) :
    Agree (FaultedAlike matching) (fun _ _ => True) (manipulation environment target value)
      (manipulation environment otherTarget otherValue) := by
  have assignment := expression_agrees environment assigned
  unfold manipulation
  rw [← matching.same_lexeme named]
  cases environment.binding? target.lexeme with
  | some binding => exact assignment
  | none =>
      have undeclared : Agree (FaultedAlike matching) (fun _ _ => True)
          (fail target.line (.undeclaredTarget target.lexeme) : Check PUnit)
          (fail otherTarget.line (.undeclaredTarget target.lexeme) : Check PUnit) :=
        agree_fail (matching.same_line named)
          (List.forall_mem_singleton.mpr (Matching.spells named))
      exact agree_bind undeclared fun _ _ _ => assignment

/-- Return statements that match are checked alike. Both are in a function, or neither is. -/
theorem returnValue_agrees (environment : Environment)
    {keyword value otherKeyword otherValue : Token} (word : matching.token keyword otherKeyword)
    (returned : matching.token value otherValue) :
    Agree (FaultedAlike matching) (fun _ _ => True) (returnValue environment keyword value)
      (returnValue environment otherKeyword otherValue) := by
  have result := reference_agrees environment returned
  have outside : Agree (FaultedAlike matching) (fun _ _ => True)
      (fail keyword.line .returnOutsideFunction : Check PUnit)
      (fail otherKeyword.line .returnOutsideFunction : Check PUnit) :=
    agree_fail (matching.same_line word) (List.forall_mem_nil _)
  rintro ⟨trail, inFunction⟩
  cases inFunction with
  | true => exact result ⟨trail, true⟩
  | false => exact agree_bind outside (fun _ _ _ => result) ⟨trail, false⟩

section Statements

/-- Placeholders with one index are checked alike. -/
def HoistedAlike (matching : Matching)
    (hoisted otherHoisted : Nat → Nat → Environment → Check Environment) : Prop :=
  ∀ index {line otherLine}, matching.line line otherLine →
    ∀ {environment : Environment}, environment.Spelled matching →
      Agree (FaultedAlike matching) (SameScope matching) (hoisted index line environment)
        (otherHoisted index otherLine environment)

variable (hoisted otherHoisted : Nat → Nat → Environment → Check Environment)

/-- The two checks of a pair of phrases agree in every environment. -/
def PhraseAgrees (matching : Matching) : Phrase → Phrase → Prop
  | .block body, .block other => ∀ {environment : Environment}, environment.Spelled matching →
      Agree (FaultedInside matching) (SameScope matching) (block hoisted environment body)
        (block otherHoisted environment other)
  | .continuation list otherwise, .continuation others otherLast =>
      ∀ {environment : Environment}, environment.Spelled matching →
        Agree (FaultedAlike matching) (fun _ _ => True) (chain hoisted environment list otherwise)
          (chain otherHoisted environment others otherLast)
  | .compound first, .compound other => ∀ {environment : Environment},
      environment.Spelled matching →
        Agree (FaultedInside matching) (SameScope matching) (statement hoisted environment first)
          (statement otherHoisted environment other)
  | .statements list, .statements others => ∀ {environment : Environment},
      environment.Spelled matching →
        Agree (FaultedInside matching) (SameScope matching) (statements hoisted environment list)
          (statements otherHoisted environment others)
  | _, _ => True

variable {hoisted otherHoisted}

/-- Blocks that agree do so inside a new frame with variables whose types are spelled, and what they
    declare is gone afterwards. -/
theorem PhraseAgrees.inBlock {body other : Block Statement}
    (inside : PhraseAgrees hoisted otherHoisted matching (.block body) (.block other))
    (spelled : environment.Spelled matching) {bindings : List Binding}
    (types : ∀ binding ∈ bindings, matching.Spells binding.type) :
    Agree (FaultedAlike matching) (fun _ _ => True)
      (Check.inBlock environment bindings fun inner => block hoisted inner body)
      (Check.inBlock environment bindings fun inner => block otherHoisted inner other) :=
  agree_inBlock fun site => ((inside (spelled.enter types)).outward site).mono id fun _ => trivial

/-- A step that leaves the environment as it is agrees if its check does. -/
theorem agree_unchanged {name : String} (known : name ∈ steps) {check other : Check Unit}
    (spelled : environment.Spelled matching)
    (agree : Agree (FaultedAlike matching) (fun _ _ => True) check other) :
    Agree (FaultedInside matching) (SameScope matching)
      (do step name check; return environment) (do step name other; return environment) :=
  agree_bind (agree_step known agree) fun _ _ _ => agree_pure ⟨rfl, spelled⟩

/-- A chain is checked in one step, and the environment is left as it was. -/
theorem statement_ifChain (hoisted : Nat → Nat → Environment → Check Environment)
    (environment : Environment) (list : List (Branch Statement))
    (otherwise : Option (Block Statement)) :
    statement hoisted environment (.ifChain list otherwise) = do
      step "if" (chain hoisted environment list otherwise)
      return environment := by
  cases otherwise <;> simp only [statement, chain]

/-- Phrases that match are checked alike if placeholders of one index are. The induction is on how
    they match. -/
theorem phrase_agrees (placed : HoistedAlike matching hoisted otherHoisted)
    {phrase other : Phrase} (matched : phrase.Matches matching other) :
    PhraseAgrees hoisted otherHoisted matching phrase other := by
  induction matched with
  | block _ _ ih =>
      intro environment spelled
      simp only [block]
      exact ih spelled
  | chainEnd =>
      intro environment spelled
      simp only [chain, branches, pure_bind]
      exact agree_pure trivial
  | otherwise _ ih =>
      intro environment spelled
      simp only [chain, branches, pure_bind]
      exact ih.inBlock spelled (List.forall_mem_nil _)
  | branch _ compared _ _ ih laterIh =>
      intro environment spelled
      simp only [chain, branches, bind_assoc]
      exact agree_bind (comparison_agrees environment compared) fun _ _ _ =>
        agree_bind (ih.inBlock spelled (List.forall_mem_nil _)) fun _ _ _ => laterIh spelled
  | forRange _ name low high _ ih =>
      intro environment spelled
      simp only [statement, ← matching.same_lexeme name]
      refine agree_unchanged (by decide) spelled ?_
      refine agree_bind (reference_agrees environment low) fun _ _ _ => ?_
      refine agree_bind (reference_agrees environment high) fun _ _ _ => ?_
      have counted : matching.Spells TypeName.int := .inl (by decide)
      exact ih.inBlock spelled (List.forall_mem_singleton.mpr counted)
  | whileLoop _ compared _ ih =>
      intro environment spelled
      simp only [statement]
      refine agree_unchanged (by decide) spelled ?_
      exact agree_bind (comparison_agrees environment compared) fun _ _ _ =>
        ih.inBlock spelled (List.forall_mem_nil _)
  | ifChain _ ih =>
      intro environment spelled
      rw [statement_ifChain, statement_ifChain]
      exact agree_unchanged (by decide) spelled (ih spelled)
  | declaration named typed initial =>
      intro environment spelled
      simp only [statement]
      exact agree_step (by decide) (declaration_agrees spelled named typed initial)
  | manipulation named assigned =>
      intro environment spelled
      simp only [statement]
      exact agree_unchanged (by decide) spelled (manipulation_agrees environment named assigned)
  | call called =>
      intro environment spelled
      cases called with
      | call name inside =>
          simp only [statement, ← inside.length_eq, ← matching.same_lexeme name]
          have result (count : Nat) := callResult_agrees spelled name count fun types known =>
            argumentsFit_agrees spelled (Matching.spells name) 1 inside known
          exact agree_bind (agree_step (by decide) (result _)) fun _ _ _ =>
            agree_pure ⟨rfl, spelled⟩
  | returnValue word returned =>
      intro environment spelled
      simp only [statement]
      exact agree_unchanged (by decide) spelled (returnValue_agrees environment word returned)
  | hoisted numbers =>
      obtain ⟨rfl, lines⟩ := numbers
      intro environment spelled
      simp only [statement]
      exact agree_step (by decide) (placed _ lines spelled)
  | nil =>
      intro environment spelled
      simp only [statements]
      exact agree_pure ⟨rfl, spelled⟩
  | cons _ _ ih laterIh =>
      intro environment spelled
      simp only [statements]
      refine agree_bind (ih spelled) fun next _ scopes => ?_
      obtain ⟨rfl, nextSpelled⟩ := scopes
      exact laterIh nextSpelled

end Statements

/-! ## Definitions -/

/-- Parameters that match have the same names and types, so they bind the same variables. The
    induction is on the lists. -/
theorem parameters_same {parameters others : List Parameter}
    (matched : List.Forall₂ (Parameter.Matches matching) parameters others) :
    parameters.map (fun parameter => parameter.type.lexeme) =
        others.map (fun parameter => parameter.type.lexeme) ∧
      parameters.map (fun parameter =>
          (⟨parameter.name.lexeme, parameter.type.lexeme⟩ : Binding)) =
        others.map (fun parameter => ⟨parameter.name.lexeme, parameter.type.lexeme⟩) := by
  induction matched with
  | nil => exact ⟨rfl, rfl⟩
  | cons first _ ih =>
      simp only [List.map_cons, ih.1, ih.2, matching.same_lexeme first.type,
        matching.same_lexeme first.name, and_self]

/-- What a definition declares is the same on both sides, its signature and the variables that its
    body starts with. -/
theorem definition_same {definition other : Definition}
    (matched : definition.Matches matching other) :
    definition.signature = other.signature ∧ definition.bindings = other.bindings := by
  obtain ⟨-, name, parameters, returns, -⟩ := matched
  have result : definition.returns.map Token.lexeme = other.returns.map Token.lexeme := by
    generalize definition.returns = type at returns
    generalize other.returns = otherType at returns
    cases returns with
    | none => rfl
    | some type => exact congrArg some (matching.same_lexeme type)
  obtain ⟨types, bindings⟩ := parameters_same parameters
  exact ⟨by simp only [Definition.signature, matching.same_lexeme name, types, result], bindings⟩

/-- The types of parameters with partners are spelled, as they are texts of leaves. -/
theorem parameter_spelled {parameters others : List Parameter}
    (matched : List.Forall₂ (Parameter.Matches matching) parameters others) :
    ∀ parameter ∈ parameters, matching.Spells parameter.type.lexeme := by
  induction matched with
  | nil => exact List.forall_mem_nil _
  | cons first _ ih => exact List.forall_mem_cons.mpr ⟨Matching.spells first.type, ih⟩

/-- All types of a signature with a partner are spelled. Without a result it is the null type, which
    needs no token. -/
theorem signature_spelled {definition other : Definition}
    (matched : definition.Matches matching other) : definition.signature.Spelled matching := by
  obtain ⟨-, -, parameters, returns, -⟩ := matched
  refine List.forall_mem_cons.mpr ⟨?_, List.forall_mem_map.mpr (parameter_spelled parameters)⟩
  simp only [Definition.signature]
  generalize definition.returns = type at returns
  generalize other.returns = otherType at returns
  cases returns with
  | none => exact .inl (by decide)
  | some type => exact Matching.spells type

/-- In lists of definitions that match, what is found under one number matches, or nothing is found
    in either. -/
theorem getElem?_matched {functions others : List Definition}
    (matched : List.Forall₂ (Definition.Matches matching) functions others) (index : Nat) :
    Option.Rel (Definition.Matches matching) functions[index]? others[index]? := by
  induction matched generalizing index with
  | nil => exact .none
  | cons first _ ih =>
      cases index with
      | zero => exact .some first
      | succ index => exact ih index

/-- Placeholders of one index are checked alike in lists of functions that match. The induction is
    on the bound for bodies inside one another. -/
theorem definition_agrees {functions others : List Definition}
    (matched : List.Forall₂ (Definition.Matches matching) functions others) (bound : Nat) :
    HoistedAlike matching (Check.definition functions bound) (Check.definition others bound) := by
  induction bound with
  | zero =>
      intro index line otherLine lines environment spelled
      exact agree_fail lines (List.forall_mem_nil _)
  | succ bound ih =>
      intro index line otherLine lines environment spelled
      have found := getElem?_matched matched index
      rw [definition_succ, definition_succ]
      unfold entered
      generalize functions[index]? = entry at found
      generalize others[index]? = otherEntry at found
      cases found with
      | none => exact agree_fail lines (List.forall_mem_nil _)
      | some same =>
          rename_i definition other
          obtain ⟨signatures, bindings⟩ := definition_same same
          have types : ∀ binding ∈ definition.bindings, matching.Spells binding.type :=
            List.forall_mem_map.mpr (parameter_spelled same.parameters)
          have declared := spelled.declareFunction (signature_spelled same)
          have body := PhraseAgrees.inBlock (phrase_agrees ih same.body) declared.isolated types
          simp only [← signatures, ← bindings]
          exact agree_bind (fun site => body { site with inFunction := true }) fun _ _ _ =>
            agree_pure ⟨rfl, declared⟩

end Check

/-- Static analysis treats matching programs alike: both pass, or both fail with one fault on
    matching lines. -/
theorem analyze_agrees {program other : Program} (matched : program.Matches matching other) :
    Traced.Agree (Check.FaultedInside matching ["analyze"]) (fun _ _ => True)
      (program.analyze [] []) (other.analyze [] []) := by
  have bounds : other.definitionBound = program.definitionBound := by
    rw [Program.definitionBound, Program.definitionBound, matched.functions.length_eq]
  have start : (Environment.seeded [] []).Spelled matching :=
    ⟨List.forall_mem_singleton.mpr (List.forall_mem_nil _),
      List.forall_mem_singleton.mpr (List.forall_mem_nil _)⟩
  have placed := Check.definition_agrees matched.functions program.definitionBound
  have body := Check.phrase_agrees placed matched.body start
  unfold Program.analyze
  rw [bounds]
  exact Traced.agree_bind (body ⟨["analyze"], false⟩) fun _ _ _ => Traced.agree_report _ _

end Offside
