import Offside.Proofs.Syntax.Matching
import Offside.Proofs.Syntax.Reading

/-!
# Reading side by side

Two readers agree if, started side by side on matching tokens, they either both succeed
with matching results or both fail with the same fault. They stand abreast as long as
the unread tokens match; how many line breaks each of them has passed is its own affair.

The bounds that the readers of nested phrases carry are counts of unread tokens, so the
two bounds differ when the counts do. `Abreast` therefore records the room that is left
on either side: a reader that succeeds has read a token, and where no room is left,
nothing is left to read.
-/

namespace Offside

open Grammar

/-- The token that the wording of a fault shows. -/
def SyntaxFault.shown : SyntaxFault → Option Token
  | .expectedStatement found | .expectedLineEnd found | .expected _ found => found
  | _ => none

/-- What comes first and is no line break has a partner on the other side. -/
theorem Matching.Fronts.shown {matching : Matching} {first second : Option Token}
    (fronts : matching.Fronts first second) :
    ∀ token ∈ first, token.kind = .newline ∨ ∃ partner, matching.token token partner := by
  intro token found
  cases fronts with
  | none => cases found
  | token matched =>
      cases found
      exact .inr ⟨_, matched⟩
  | lineBreak isBreak otherBreak lines =>
      cases found
      exact .inl isBreak

/-- What comes first is worded alike on both sides: a line break is named, and tokens that match
    have one kind and one lexeme. -/
theorem Matching.Fronts.same_wording {matching : Matching} {first second : Option Token}
    (fronts : matching.Fronts first second) :
    SyntaxFault.describeFound first = SyntaxFault.describeFound second := by
  cases fronts with
  | none => rfl
  | token matched =>
      simp only [SyntaxFault.describeFound, matching.same_kind matched,
        matching.same_lexeme matched]
  | lineBreak isBreak otherBreak lines => simp [SyntaxFault.describeFound, isBreak, otherBreak]

namespace Reader

/-- The names of the productions that a program is made of. -/
def productions : List String :=
  ["import", "statement", "declaration", "manipulation", "call", "for", "while", "if",
    "function", "return", "block", "expression", "comparison"]

variable {α β γ δ : Type} (matching : Matching)

/-- The failures report one fault on matching lines, met in the productions of the trail
    or inside them. What the wording shows is a line break or a token with a partner. -/
def BlamedAlike (trail : List String) (failure other : Failure) : Prop :=
  ∃ inner line otherLine fault,
    failure = .parse ⟨trail ++ inner, line, SyntaxFault.message fault⟩ ∧
      other = .parse ⟨trail ++ inner, otherLine, SyntaxFault.message fault⟩ ∧
        inner ⊆ productions ∧ matching.line line otherLine ∧
          ∀ token ∈ fault.shown, token.kind = .newline ∨ ∃ partner, matching.token token partner

/-- The definitions met so far match. -/
def DefinedAlike (state other : State) : Prop :=
  List.Forall₂ (Definition.Matches matching) state.functions other.functions

/-- The unread tokens are related, fewer than the room on either side, and the definitions
    met so far match. -/
structure Abreast (related : List Token → List Token → Prop) (room otherRoom : Nat)
    (state other : State) : Prop where
  rest : related state.rest other.rest
  defined : DefinedAlike matching state other
  within : state.rest.length < room
  otherWithin : other.rest.length < otherRoom

/-- Both runs succeed with related values and states, or both fail alike. -/
inductive Results (trail : List String) (same : α → β → Prop) (post : State → State → Prop) :
    EStateM.Result Failure State α → EStateM.Result Failure State β → Prop where
  | ok {value other after otherAfter} (values : same value other)
      (states : post after otherAfter) :
      Results trail same post (.ok value after) (.ok other otherAfter)
  | error {failure other after otherAfter} (failures : BlamedAlike matching trail failure other)
      (defined : DefinedAlike matching after otherAfter) :
      Results trail same post (.error failure after) (.error other otherAfter)

/-- From states related by `pre`, the readers have related results. -/
def Agree (pre : State → State → Prop) (reader : Reader α) (other : Reader β)
    (same : α → β → Prop) (post : State → State → Prop) : Prop :=
  ∀ context otherContext state otherState, context.trail = otherContext.trail →
    matching.line context.lastLine otherContext.lastLine → pre state otherState →
      Results matching context.trail same post (reader context state)
        (other otherContext otherState)

variable {matching} {pre middle post : State → State → Prop} {same : α → β → Prop}
  {room otherRoom : Nat}

/-! ## Putting readers together -/

/-- Failures that are alike in a production are alike in the productions around it. The name of the
    inner one becomes a part of where they were met. -/
theorem BlamedAlike.outward {trail : List String} {name : String} {failure other : Failure}
    (alike : BlamedAlike matching (trail ++ [name]) failure other)
    (known : name ∈ productions) : BlamedAlike matching trail failure other := by
  obtain ⟨inner, line, otherLine, fault, reported, otherReported, named, lines, shown⟩ := alike
  rw [List.append_assoc] at reported otherReported
  exact ⟨_, line, otherLine, fault, reported, otherReported,
    List.cons_subset.mpr ⟨known, named⟩, lines, shown⟩

/-- Readers that agree, each followed by readers that agree on related values, agree as a whole. If
    the first ones fail, they have done so alike. -/
theorem agree_bind {reader : Reader α} {other : Reader β} {next : α → Reader γ}
    {otherNext : β → Reader δ} {result : γ → δ → Prop}
    (first : Agree matching pre reader other same middle)
    (second : ∀ value otherValue, same value otherValue →
      Agree matching middle (next value) (otherNext otherValue) result post) :
    Agree matching pre (reader >>= next) (other >>= otherNext) result post := by
  intro context otherContext state otherState trails lines before
  have results := first context otherContext state otherState trails lines before
  generalize run : reader context state = outcome at results
  generalize otherRun : other otherContext otherState = otherOutcome at results
  cases results with
  | ok values states =>
      rw [bind_of_ok run, bind_of_ok otherRun]
      exact second _ _ values _ _ _ _ trails lines states
  | error failures defined =>
      rw [bind_of_error run, bind_of_error otherRun]
      exact .error failures defined

/-- Agreement from some states is agreement from fewer states, and what holds of the states at the
    end may be loosened. -/
theorem Agree.weaken {reader : Reader α} {other : Reader β} {strong weak : State → State → Prop}
    (agree : Agree matching pre reader other same post)
    (stronger : ∀ {state other}, strong state other → pre state other)
    (weaker : ∀ {state other}, post state other → weak state other) :
    Agree matching strong reader other same weak := by
  intro context otherContext state otherState trails lines before
  have results := agree context otherContext state otherState trails lines (stronger before)
  generalize reader context state = outcome at results
  generalize other otherContext otherState = otherOutcome at results
  cases results with
  | ok values states => exact .ok values (weaker states)
  | error failures defined => exact .error failures defined

/-- Readers agree from states that there are none of, whatever they are. -/
theorem agree_of_absurd {reader : Reader α} {other : Reader β}
    (absurd : ∀ {state other}, ¬ pre state other) :
    Agree matching pre reader other same post :=
  fun _ _ _ _ _ _ before => (absurd before).elim

/-- Readers that agree still do so inside a production of one name, since the trails of both grow by
    this name. -/
theorem agree_production {name : String} (known : name ∈ productions) {reader : Reader α}
    {other : Reader β} (agree : Agree matching pre reader other same post) :
    Agree matching pre (production name reader) (production name other) same post := by
  intro context otherContext state otherState trails lines before
  have results := agree { context with trail := context.trail ++ [name] }
    { otherContext with trail := otherContext.trail ++ [name] } state otherState
    (congrArg (· ++ [name]) trails) lines before
  rw [production_apply, production_apply]
  generalize reader _ state = outcome at results
  generalize other _ otherState = otherOutcome at results
  cases results with
  | ok values states => exact .ok values states
  | error failures defined => exact .error (failures.outward known) defined

/-- Readers that only return values agree if the values are related. The states stay as they are. -/
theorem agree_pure {value : α} {other : β} (values : same value other) :
    Agree matching pre (pure value) (pure other) same pre :=
  fun _ _ _ _ _ _ before => .ok values before

/-! ## The unread tokens -/

variable {related : List Token → List Token → Prop}

/-- States that are abreast stay so if there is more room on either side. -/
theorem Abreast.mono {state other : State} {more otherMore : Nat}
    (abreast : Abreast matching related room otherRoom state other) (rooms : room ≤ more)
    (otherRooms : otherRoom ≤ otherMore) :
    Abreast matching related more otherMore state other :=
  { abreast with
    within := Nat.lt_of_lt_of_le abreast.within rooms
    otherWithin := Nat.lt_of_lt_of_le abreast.otherWithin otherRooms }

/-- Unread tokens that match one by one match up to line breaks in particular. -/
theorem Abreast.loose {state other : State}
    (abreast : Abreast matching matching.Stretched room otherRoom state other) :
    Abreast matching matching.Loose room otherRoom state other :=
  { abreast with rest := abreast.rest.loose }

/-- The end of a sequence: room that was used up is given back. -/
theorem agree_return {value : α} {other : β} {more otherMore : Nat} (values : same value other)
    (rooms : room ≤ more) (otherRooms : otherRoom ≤ otherMore) :
    Agree matching (Abreast matching related room otherRoom) (pure value) (pure other) same
      (Abreast matching related more otherMore) :=
  (agree_pure values).weaken id fun after => after.mono rooms otherRooms

/-- Looking at the unread tokens tells how much room there is: it can be taken to be one more than
    their number on either side. -/
theorem agree_unread {next : List Token → Reader α} {otherNext : List Token → Reader β}
    (later : ∀ rest others, related rest others → rest.length < room → others.length < otherRoom →
      Agree matching (Abreast matching related (rest.length + 1) (others.length + 1))
        (next rest) (otherNext others) same post) :
    Agree matching (Abreast matching related room otherRoom) (unread >>= next)
      (unread >>= otherNext) same post := by
  intro context otherContext state otherState trails lines before
  rw [bind_of_ok unread_apply, bind_of_ok unread_apply]
  exact later _ _ before.rest before.within before.otherWithin _ _ _ _ trails lines
    { before with within := Nat.lt_succ_self _, otherWithin := Nat.lt_succ_self _ }

/-- Skipping line breaks makes tokens that match up to line breaks match one by one, however many
    are skipped on either side. -/
theorem agree_skipNewlines :
    Agree matching (Abreast matching matching.Loose room otherRoom) skipNewlines skipNewlines
      (fun _ _ => True) (Abreast matching matching.Stretched room otherRoom) := by
  intro context otherContext state otherState trails lines before
  rw [skipNewlines_apply, skipNewlines_apply]
  exact .ok trivial
    { rest := before.rest
      defined := before.defined
      within := Nat.lt_of_le_of_lt (length_skipBreaks_le _) before.within
      otherWithin := Nat.lt_of_le_of_lt (length_skipBreaks_le _) before.otherWithin }

/-- The lines on which the current tokens stand are related, for these tokens match. -/
theorem agree_currentLine :
    Agree matching (Abreast matching matching.Stretched room otherRoom) currentLine currentLine
      matching.line (Abreast matching matching.Stretched room otherRoom) :=
  fun _ _ _ _ _ lines before => .ok (before.rest.fronts.same_line lines) before

/-- Abreast, and what comes next has this kind. -/
structure Facing (matching : Matching) (kind : Option Kind) (room otherRoom : Nat)
    (state other : State) : Prop extends
    Abreast matching matching.Stretched room otherRoom state other where
  kind : state.rest.head?.map Token.kind = kind

/-- Readers may ask for the kind of the current token. Both sides get the same answer, so they go on
    in the same way. -/
theorem agree_currentKind {next : Option Kind → Reader α} {otherNext : Option Kind → Reader β}
    (later : ∀ kind, Agree matching (Facing matching kind room otherRoom) (next kind)
      (otherNext kind) same post) :
    Agree matching (Abreast matching matching.Stretched room otherRoom) (currentKind >>= next)
      (currentKind >>= otherNext) same post := by
  intro context otherContext state otherState trails lines before
  rw [bind_of_ok currentKind_apply, bind_of_ok currentKind_apply,
    ← before.rest.fronts.same_kind]
  exact later _ _ _ _ _ trails lines { before with kind := rfl }

/-- What comes next is of some kind, or nothing comes. So it is enough to have agreement in each of
    these cases. -/
theorem agree_facing {reader : Reader α} {other : Reader β}
    (agree : ∀ kind, Agree matching (Facing matching kind room otherRoom) reader other same post) :
    Agree matching (Abreast matching matching.Stretched room otherRoom) reader other same post :=
  fun _ _ _ _ trails lines before =>
    agree _ _ _ _ _ trails lines { before with kind := rfl }

/-- Looking at what comes next tells nothing new where its kind is known. -/
theorem agree_facing_currentKind {kind : Option Kind} {next : Option Kind → Reader α}
    {otherNext : Option Kind → Reader β}
    (later : Agree matching (Facing matching kind room otherRoom) (next kind) (otherNext kind)
      same post) :
    Agree matching (Facing matching kind room otherRoom) (currentKind >>= next)
      (currentKind >>= otherNext) same post := by
  intro context otherContext state otherState trails lines before
  rw [bind_of_ok currentKind_apply, bind_of_ok currentKind_apply,
    ← before.rest.fronts.same_kind, before.kind]
  exact later _ _ _ _ trails lines before

/-- Where the current token is no line break, its tail is abreast again. -/
theorem Facing.tail {kind : Kind} {state other : State} (noBreak : kind ≠ .newline)
    (facing : Facing matching (some kind) room otherRoom state other) :
    Abreast matching matching.Stretched (room - 1) (otherRoom - 1)
      { state with rest := state.rest.tail } { other with rest := other.rest.tail } := by
  obtain ⟨⟨rest, defined, within, otherWithin⟩, first⟩ := facing
  obtain ⟨tokens, functions, events⟩ := state
  obtain ⟨others, otherFunctions, otherEvents⟩ := other
  cases rest with
  | nil => cases first
  | lineBreak isBreak otherBreak lines later =>
      rw [List.head?_cons, Option.map_some, isBreak] at first
      exact absurd (Option.some.inj first).symm noBreak
  | token matched _ later =>
      rw [List.length_cons] at within otherWithin
      exact ⟨later, defined, by simp only [List.tail_cons]; omega,
        by simp only [List.tail_cons]; omega⟩

/-- Going past a token that is no line break leaves tokens that match and takes one off the room on
    both sides. -/
theorem agree_advance {kind : Kind} (noBreak : kind ≠ .newline) :
    Agree matching (Facing matching (some kind) room otherRoom) advance advance
      (fun _ _ => True) (Abreast matching matching.Stretched (room - 1) (otherRoom - 1)) := by
  intro context otherContext state otherState trails lines before
  rw [advance_apply, advance_apply]
  exact .ok trivial (before.tail noBreak)

/-- Readers may ask for the kind of the token after the current one and get the same answer,
    provided that the current one is no line break. -/
theorem agree_nextKind {kind : Kind} (noBreak : kind ≠ .newline)
    {next : Option Kind → Reader α} {otherNext : Option Kind → Reader β}
    (later : ∀ following, Agree matching (Facing matching (some kind) room otherRoom)
      (next following) (otherNext following) same post) :
    Agree matching (Facing matching (some kind) room otherRoom) (nextKind >>= next)
      (nextKind >>= otherNext) same post := by
  intro context otherContext state otherState trails lines before
  have kinds := (before.tail noBreak).rest.fronts.same_kind
  rw [List.head?_tail, List.head?_tail] at kinds
  rw [bind_of_ok nextKind_apply, bind_of_ok nextKind_apply, ← kinds]
  exact later _ _ _ _ _ trails lines before

/-! ## Faults -/

/-- Readers may ask for the current token. They get tokens that match or line breaks, or nothing is
    left on both sides. -/
theorem agree_current {next : Option Token → Reader α} {otherNext : Option Token → Reader β}
    (later : ∀ first second, matching.Fronts first second →
      Agree matching (Abreast matching matching.Stretched room otherRoom) (next first)
        (otherNext second) same post) :
    Agree matching (Abreast matching matching.Stretched room otherRoom) (current >>= next)
      (current >>= otherNext) same post := by
  intro context otherContext state otherState trails lines before
  rw [bind_of_ok current_apply, bind_of_ok current_apply]
  exact later _ _ before.rest.fronts _ _ _ _ trails lines before

/-- A fault on matching lines that is worded alike on both sides. -/
theorem agree_failOn {line otherLine : Nat} {fault otherFault : SyntaxFault}
    (lines : matching.line line otherLine) (worded : fault.message = otherFault.message)
    (shown : ∀ token ∈ fault.shown, token.kind = .newline ∨ ∃ partner, matching.token token partner)
    (defined : ∀ {state other}, pre state other → DefinedAlike matching state other) :
    Agree matching pre (failOn line fault : Reader α) (failOn otherLine otherFault : Reader β)
      same post := by
  intro context otherContext state otherState trails _ before
  rw [failOn_apply, failOn_apply, ← trails, ← worded]
  exact .error ⟨[], line, otherLine, fault, by rw [List.append_nil], by rw [List.append_nil],
    List.nil_subset _, lines, shown⟩ (defined before)

/-- Readers that fail agree if their faults are worded alike and what the wording shows has a
    partner. -/
theorem agree_fail {fault otherFault : SyntaxFault} (worded : fault.message = otherFault.message)
    (shown : ∀ token ∈ fault.shown,
      token.kind = .newline ∨ ∃ partner, matching.token token partner) :
    Agree matching (Abreast matching matching.Stretched room otherRoom)
      (fail fault : Reader α) (fail otherFault : Reader β) same post := by
  intro context otherContext state otherState trails lines before
  rw [fail_apply, fail_apply, ← trails, ← worded]
  exact .error ⟨[], _, _, fault, by rw [List.append_nil], by rw [List.append_nil],
    List.nil_subset _, before.rest.fronts.same_line lines, shown⟩ before.defined

/-- Readers that fail with the same fault agree if its wording shows no token, for then only the
    lines can differ. -/
theorem agree_fail_plain {fault : SyntaxFault} (plain : fault.shown = none) :
    Agree matching (Abreast matching matching.Stretched room otherRoom)
      (fail fault : Reader α) (fail fault : Reader β) same post :=
  agree_fail rfl (by simp [plain])

/-- Readers that fail because of the current token agree: both name the same kinds, and what they
    found is worded alike. -/
theorem agree_unexpected (kinds : List Kind) :
    Agree matching (Abreast matching matching.Stretched room otherRoom)
      (unexpected kinds : Reader α) (unexpected kinds : Reader β) same post :=
  agree_current fun _ _ fronts => agree_fail
    (congrArg (fun found => "expected " ++ Kind.describeAny kinds ++ ", got " ++ found)
      fronts.same_wording)
    fronts.shown

/-! ## Single tokens -/

/-- An optional token is taken on both sides or on neither. If it is taken, it has a partner and
    there is less room. -/
theorem agree_accept? {admitted : Kind → Bool} (noBreak : admitted .newline = false)
    {next : Option Token → Reader α} {otherNext : Option Token → Reader β}
    (taken : ∀ token other, matching.token token other →
      Agree matching (Abreast matching matching.Stretched (room - 1) (otherRoom - 1))
        (next (some token)) (otherNext (some other)) same post)
    (refused : Agree matching (Abreast matching matching.Stretched room otherRoom) (next none)
      (otherNext none) same post) :
    Agree matching (Abreast matching matching.Stretched room otherRoom)
      (accept? admitted >>= next) (accept? admitted >>= otherNext) same post := by
  intro context otherContext state otherState trails lines before
  obtain ⟨rest, functions, events⟩ := state
  obtain ⟨others, otherFunctions, otherEvents⟩ := otherState
  obtain ⟨stretched, defined, within, otherWithin⟩ := before
  cases stretched with
  | nil =>
      rw [bind_of_ok (accept?_none (by simp)), bind_of_ok (accept?_none (by simp))]
      exact refused _ _ _ _ trails lines ⟨.nil, defined, within, otherWithin⟩
  | token matched kept later =>
      have kinds := matching.same_kind matched
      rename_i token other rest others
      by_cases admits : admitted token.kind = true
      · rw [bind_of_ok (accept?_cons admits), bind_of_ok (accept?_cons (kinds ▸ admits))]
        rw [List.length_cons] at within otherWithin
        exact taken _ _ matched _ _ _ _ trails lines
          ⟨later, defined, Nat.lt_sub_of_add_lt within, Nat.lt_sub_of_add_lt otherWithin⟩
      · rw [Bool.not_eq_true] at admits
        rw [bind_of_ok (accept?_none (by simpa using admits)),
          bind_of_ok (accept?_none (by simpa [← kinds] using admits))]
        exact refused _ _ _ _ trails lines
          ⟨.token matched kept later, defined, within, otherWithin⟩
  | lineBreak isBreak otherBreak breakLines later =>
      rw [bind_of_ok (accept?_none (by simpa [isBreak] using noBreak)),
        bind_of_ok (accept?_none (by simpa [otherBreak] using noBreak))]
      exact refused _ _ _ _ trails lines
        ⟨.lineBreak isBreak otherBreak breakLines later, defined, within, otherWithin⟩

/-- Readers that demand a token of some kinds, among which are no line breaks, take matching tokens
    or fail alike. -/
theorem agree_expectAny {kinds : List Kind} (noBreak : .newline ∉ kinds) :
    Agree matching (Abreast matching matching.Stretched room otherRoom) (expectAny kinds)
      (expectAny kinds) matching.token
      (Abreast matching matching.Stretched (room - 1) (otherRoom - 1)) :=
  agree_accept? (by simpa using noBreak) (fun _ _ matched => agree_pure matched)
    (agree_unexpected kinds)

/-- Readers that demand a token of one kind, which is no line break, take matching tokens or fail
    alike. -/
theorem agree_expect {kind : Kind} (noBreak : kind ≠ .newline) :
    Agree matching (Abreast matching matching.Stretched room otherRoom) (expect kind)
      (expect kind) matching.token
      (Abreast matching matching.Stretched (room - 1) (otherRoom - 1)) :=
  agree_expectAny (by simpa using noBreak.symm)

/-- Past a line break there may be more of them on one side than on the other. -/
theorem agree_expect_newline :
    Agree matching (Abreast matching matching.Stretched room otherRoom) (expect .newline)
      (expect .newline) (fun _ _ => True)
      (Abreast matching matching.Loose (room - 1) (otherRoom - 1)) := by
  intro context otherContext state otherState trails lines before
  have refused : Agree matching (Abreast matching matching.Stretched room otherRoom)
      (unexpected [.newline] : Reader Token) (unexpected [.newline] : Reader Token)
      (fun _ _ => True) (Abreast matching matching.Loose (room - 1) (otherRoom - 1)) :=
    agree_unexpected _
  have unexpected := refused context otherContext state otherState trails lines before
  obtain ⟨rest, functions, events⟩ := state
  obtain ⟨others, otherFunctions, otherEvents⟩ := otherState
  obtain ⟨stretched, defined, within, otherWithin⟩ := before
  cases stretched with
  | nil => exact unexpected
  | token matched kept later =>
      have otherKept := matching.same_kind matched ▸ kept
      rwa [expect, expectAny, bind_of_ok (accept?_none (by simpa using kept)),
        bind_of_ok (accept?_none (by simpa using otherKept))]
  | lineBreak isBreak otherBreak breakLines later =>
      rw [expect_cons isBreak, expect_cons otherBreak]
      rw [List.length_cons] at within otherWithin
      exact .ok trivial
        ⟨later, defined, Nat.lt_sub_of_add_lt within, Nat.lt_sub_of_add_lt otherWithin⟩

end Reader

end Offside
