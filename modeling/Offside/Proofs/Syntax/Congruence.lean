import Offside.Proofs.Syntax.Agreement
import Offside.Proofs.Syntax.Strategy
import Offside.Proofs.Traced

/-!
# Matching tokens have matching trees

One lemma for each production: on matching tokens it agrees with itself. The readers of
nested phrases agree whatever their bounds are, as long as the bounds are no less than
the unread tokens.

The productions above declarations and chains of branches are taken with a strategy on
either side, so that what is said of them holds of the grammar and of every other way to
settle its open decisions alike.
-/

namespace Offside.Reader

open Grammar

variable {α β : Type} {matching : Matching} {room otherRoom : Nat}

/-- The readers agree where there is at most so much room, and read a token if they
    succeed. -/
def Reads (matching : Matching) (limit otherLimit : Nat) (reader : Reader α) (other : Reader β)
    (same : α → β → Prop) : Prop :=
  ∀ {room otherRoom}, room ≤ limit → otherRoom ≤ otherLimit →
    Agree matching (Abreast matching matching.Stretched room otherRoom) reader other same
      (Abreast matching matching.Stretched (room - 1) (otherRoom - 1))

/-! ## Expressions and calls -/

/-- Expressions on matching tokens match. An operator is there on both sides or on neither. -/
theorem expression_agrees :
    Agree matching (Abreast matching matching.Stretched room otherRoom) expression expression
      (Expression.Matches matching)
      (Abreast matching matching.Stretched (room - 1) (otherRoom - 1)) := by
  apply agree_production (by decide)
  refine agree_bind (agree_expectAny (by decide)) fun left otherLeft lefts => ?_
  refine agree_accept? rfl (fun operator otherOperator operators => ?_) ?_
  · exact agree_bind (agree_expectAny (by decide)) fun right otherRight rights =>
      agree_return ⟨lefts, .some ⟨operators, rights⟩⟩ (by omega) (by omega)
  · exact agree_pure ⟨lefts, .none⟩

/-- Conditions on matching tokens match, since both expressions do and a comparator is there on both
    sides or on neither. -/
theorem comparison_agrees :
    Agree matching (Abreast matching matching.Stretched room otherRoom) comparison comparison
      (Comparison.Matches matching)
      (Abreast matching matching.Stretched (room - 1) (otherRoom - 1)) := by
  apply agree_production (by decide)
  refine agree_bind expression_agrees fun left otherLeft lefts => ?_
  refine agree_accept? rfl (fun comparator otherComparator comparators => ?_) ?_
  · exact agree_bind expression_agrees fun right otherRight rights =>
      agree_return ⟨lefts, .some ⟨comparators, rights⟩⟩ (by omega) (by omega)
  · exact agree_pure ⟨lefts, .none⟩

/-- If items agree, so do lists of them with commas. Both bounds are large enough for the room there
    is, so that neither side stops for its bound. -/
theorem separatedWithin_agrees {item : Reader α} {other : Reader β} {same : α → β → Prop}
    {limit otherLimit : Nat} (items : Reads matching limit otherLimit item other same)
    {bound otherBound : Nat} (rooms : room ≤ bound + 1) (otherRooms : otherRoom ≤ otherBound + 1)
    (limits : room ≤ limit) (otherLimits : otherRoom ≤ otherLimit) :
    Agree matching (Abreast matching matching.Stretched room otherRoom)
      (separatedWithin item bound) (separatedWithin other otherBound) (List.Forall₂ same)
      (Abreast matching matching.Stretched (room - 1) (otherRoom - 1)) := by
  -- where one bound is zero, an item that succeeds leaves less than no room
  induction bound generalizing otherBound room otherRoom with
  | zero =>
      cases otherBound with
      | zero =>
          exact agree_bind (items limits otherLimits) fun first otherFirst firsts =>
            agree_pure (.cons firsts .nil)
      | succ otherBound =>
          refine agree_bind (items limits otherLimits) fun first otherFirst firsts =>
            agree_of_absurd fun after => ?_
          have := after.within
          omega
  | succ bound ih =>
      cases otherBound with
      | zero =>
          refine agree_bind (items limits otherLimits) fun first otherFirst firsts =>
            agree_of_absurd fun after => ?_
          have := after.otherWithin
          omega
      | succ otherBound =>
          refine agree_bind (items limits otherLimits) fun first otherFirst firsts => ?_
          refine agree_accept? rfl (fun comma otherComma commas => ?_) ?_
          · exact agree_bind (ih (by omega) (by omega) (by omega) (by omega))
              fun later otherLater laters =>
                agree_return (.cons firsts laters) (by omega) (by omega)
          · exact agree_pure (.cons firsts .nil)

/-- If items agree where there is room for less, by the opening parenthesis, so do lists of them in
    parentheses. -/
theorem parenthesized_agrees {item : Reader α} {other : Reader β} {same : α → β → Prop}
    (items : Reads matching (room - 1) (otherRoom - 1) item other same) :
    Agree matching (Abreast matching matching.Stretched room otherRoom) (parenthesized item)
      (parenthesized other) (List.Forall₂ same)
      (Abreast matching matching.Stretched (room - 1) (otherRoom - 1)) := by
  refine agree_bind (agree_expect (by decide)) fun _ _ _ => agree_currentKind fun kind => ?_
  have closed (items : List α) (others : List β) (inside : List.Forall₂ same items others) :
      Agree matching (Abreast matching matching.Stretched (room - 1) (otherRoom - 1))
        (do let _ ← expect .rightParen; return items) (do let _ ← expect .rightParen; return others)
        (List.Forall₂ same) (Abreast matching matching.Stretched (room - 1) (otherRoom - 1)) :=
    agree_bind (agree_expect (by decide)) fun _ _ _ => agree_return inside (by omega) (by omega)
  by_cases atEnd : kind = some .rightParen
  · rw [if_pos atEnd, if_pos atEnd]
    exact agree_bind ((agree_pure .nil).weaken (·.toAbreast) id) closed
  · rw [if_neg atEnd, if_neg atEnd]
    have separate : Agree matching (Facing matching kind (room - 1) (otherRoom - 1))
        (separated item) (separated other) (List.Forall₂ same)
        (Abreast matching matching.Stretched (room - 1) (otherRoom - 1)) := by
      refine Agree.weaken (agree_unread fun rest others _ within otherWithin => ?_)
        (·.toAbreast) id
      exact (separatedWithin_agrees items (Nat.le_refl _) (Nat.le_refl _) within otherWithin).weaken
        id fun after => after.mono (by omega) (by omega)
    exact agree_bind separate closed

/-- Without room for a token there is none on either side, for tokens that match are there on both
    sides or on neither. -/
theorem Abreast.ended {state other : State} (noRoom : room ≤ 1 ∨ otherRoom ≤ 1)
    (abreast : Abreast matching matching.Stretched room otherRoom state other) :
    state.rest = [] ∧ other.rest = [] := by
  obtain ⟨stretched, -, within, otherWithin⟩ := abreast
  generalize state.rest = rest at *
  generalize other.rest = others at *
  cases stretched with
  | nil => exact ⟨rfl, rfl⟩
  | token matched noBreak later =>
      rw [List.length_cons] at within otherWithin
      omega
  | lineBreak isBreak otherBreak lines later =>
      rw [List.length_cons] at within otherWithin
      omega

/-- Where no token is left, a reader that needs one first gives up, whatever its bound. -/
theorem agree_ended {reader fallback : Reader α} {other otherFallback : Reader β}
    {same : α → β → Prop} {post : State → State → Prop} (noRoom : room ≤ 1 ∨ otherRoom ≤ 1)
    (atEnd : ∀ context state, state.rest = [] → reader context state = fallback context state)
    (otherAtEnd : ∀ context state, state.rest = [] →
      other context state = otherFallback context state)
    (agree : Agree matching (Abreast matching matching.Stretched room otherRoom) fallback
      otherFallback same post) :
    Agree matching (Abreast matching matching.Stretched room otherRoom) reader other same post := by
  intro context otherContext state otherState trails lines before
  obtain ⟨empty, otherEmpty⟩ := before.ended noRoom
  rw [atEnd context state empty, otherAtEnd otherContext otherState otherEmpty]
  exact agree context otherContext state otherState trails lines before

/-- A callee and an opening parenthesis come next on both sides or on neither. -/
theorem Stretched.startsCall {tokens others : List Token}
    (stretched : matching.Stretched tokens others) :
    startsCall tokens = startsCall others := by
  cases stretched with
  | nil => rfl
  | lineBreak isBreak otherBreak lines later =>
      rename_i token other rest others
      cases rest <;> cases others <;>
        simp [Reader.startsCall, isBreak, otherBreak, callees]
  | token matched noBreak later =>
      have kinds := later.fronts.same_kind
      rename_i token other rest others
      cases rest <;> cases others <;> simp_all [Reader.startsCall, matching.same_kind matched]

/-- Readers may ask whether a call comes next. Both sides get the same answer, which depends on two
    kinds only. -/
theorem agree_atCall {next otherNext : Bool → Reader α} {same : α → α → Prop}
    {post : State → State → Prop}
    (later : ∀ shaped, Agree matching (Abreast matching matching.Stretched room otherRoom)
      (next shaped) (otherNext shaped) same post) :
    Agree matching (Abreast matching matching.Stretched room otherRoom) (atCall >>= next)
      (atCall >>= otherNext) same post := by
  intro context otherContext state otherState trails lines before
  rw [bind_of_ok atCall_apply, bind_of_ok atCall_apply, ← Stretched.startsCall before.rest]
  exact later _ _ _ _ _ trails lines before

/-- The callees match, and so do the arguments. -/
def CalledAlike (matching : Matching) (call other : Token × List Value) : Prop :=
  (Value.call call.1 call.2).Matches matching (.call other.1 other.2)

/-- Calls on matching tokens match, whatever the bounds are, if these are large enough. The
    induction is on the bound of the first side, and the arguments of the call have less room. -/
theorem callWithin_agrees {bound otherBound : Nat} (rooms : room ≤ bound + 1)
    (otherRooms : otherRoom ≤ otherBound + 1) :
    Agree matching (Abreast matching matching.Stretched room otherRoom) (callWithin bound)
      (callWithin otherBound) (CalledAlike matching)
      (Abreast matching matching.Stretched (room - 1) (otherRoom - 1)) := by
  have ended {room otherRoom bound otherBound : Nat} (noRoom : room ≤ 1 ∨ otherRoom ≤ 1) :
      Agree matching (Abreast matching matching.Stretched room otherRoom) (callWithin bound)
        (callWithin otherBound) (CalledAlike matching)
        (Abreast matching matching.Stretched (room - 1) (otherRoom - 1)) :=
    agree_ended noRoom (callWithin_at_end _) (callWithin_at_end _)
      (agree_production (by decide) (agree_unexpected _))
  induction bound generalizing otherBound room otherRoom with
  | zero => exact ended (.inl rooms)
  | succ bound ih =>
      cases otherBound with
      | zero => exact ended (.inr otherRooms)
      | succ otherBound =>
          have argument : Reads matching (room - 1 - 1) (otherRoom - 1 - 1) (argumentWithin bound)
              (argumentWithin otherBound) (Value.Matches matching) := by
            intro inner otherInner limits otherLimits
            refine agree_atCall fun shaped => ?_
            cases shaped with
            | true =>
                exact agree_bind (ih (by omega) (by omega)) fun call otherCall calls =>
                  agree_pure calls
            | false =>
                exact agree_bind (agree_expectAny (by decide)) fun token other matched =>
                  agree_pure (.terminal matched)
          rw [callWithin_succ, callWithin_succ]
          apply agree_production (by decide)
          refine agree_bind (agree_expectAny (by decide)) fun callee otherCallee callees => ?_
          exact agree_bind (parenthesized_agrees argument) fun arguments others inside =>
            agree_return (Value.Related.call callees inside) (by omega) (by omega)

/-- Calls on matching tokens match, with bounds that both sides take from the tokens that are
    left. -/
theorem call_agrees :
    Agree matching (Abreast matching matching.Stretched room otherRoom) call call
      (CalledAlike matching) (Abreast matching matching.Stretched (room - 1) (otherRoom - 1)) :=
  agree_unread fun rest others _ within otherWithin =>
    (callWithin_agrees (Nat.le_refl _) (Nat.le_refl _)).weaken id fun after =>
      after.mono (by omega) (by omega)

/-! ## Simple statements -/

/-- Going back agrees from wherever it is done, if the checkpoints match and there was room for
    them. Definitions are not taken back. -/
theorem agree_rewind {checkpoint otherCheckpoint : List Token}
    (stretched : matching.Stretched checkpoint otherCheckpoint)
    (within : checkpoint.length < room) (otherWithin : otherCheckpoint.length < otherRoom)
    {pre : State → State → Prop}
    (defined : ∀ {state other}, pre state other → DefinedAlike matching state other) :
    Agree matching pre (rewind checkpoint) (rewind otherCheckpoint) (fun _ _ => True)
      (Abreast matching matching.Stretched room otherRoom) := by
  intro context otherContext state otherState trails lines before
  obtain ⟨event, run⟩ := rewind_apply checkpoint context state
  obtain ⟨otherEvent, otherRun⟩ := rewind_apply otherCheckpoint otherContext otherState
  have met := defined before
  rw [run, otherRun]
  exact .ok trivial ⟨stretched, met, within, otherWithin⟩

/-- An attempt that fails is followed by its handler on both sides. -/
theorem agree_tryCatch {attempt : Reader α} {other : Reader β} {handler : Failure → Reader α}
    {otherHandler : Failure → Reader β} {same : α → β → Prop} {pre post : State → State → Prop}
    (attempts : Agree matching pre attempt other same post)
    (handled : ∀ failure otherFailure trail, BlamedAlike matching trail failure otherFailure →
      ∀ context otherContext state otherState, context.trail = trail →
        otherContext.trail = trail → matching.line context.lastLine otherContext.lastLine →
          DefinedAlike matching state otherState →
            Results matching trail same post (handler failure context state)
              (otherHandler otherFailure otherContext otherState)) :
    Agree matching pre (tryCatch attempt handler) (tryCatch other otherHandler) same post := by
  intro context otherContext state otherState trails lines before
  have results := attempts context otherContext state otherState trails lines before
  rw [tryCatch_apply, tryCatch_apply]
  generalize attempt context state = outcome at results
  generalize other otherContext otherState = otherOutcome at results
  cases results with
  | ok values states => exact .ok values states
  | error failures defined =>
      exact handled _ _ _ failures _ _ _ _ rfl trails.symm lines defined

/-- Reporting an event agrees with reporting any other, for events are not compared. -/
theorem agree_report {event otherEvent : Event} {pre : State → State → Prop}
    (defined : ∀ {state other}, pre state other → DefinedAlike matching state other) :
    Agree matching pre (report event) (report otherEvent) (fun _ _ => True)
      (DefinedAlike matching) := by
  intro context otherContext state otherState trails lines before
  have met := defined before
  exact .ok trivial met

/-- Initial values on matching tokens match. A failed call is given up on both sides at once, and
    both go back to tokens that match. -/
theorem initialValue_agrees :
    Agree matching (Abreast matching matching.Stretched room otherRoom) initialValue initialValue
      (Value.Matches matching)
      (Abreast matching matching.Stretched (room - 1) (otherRoom - 1)) := by
  refine agree_atCall fun shaped => agree_unread fun checkpoint others stretched within
    otherWithin => ?_
  refine agree_tryCatch (agree_bind call_agrees fun call otherCall calls =>
    agree_return calls (by omega) (by omega)) ?_
  intro failure otherFailure trail failures context otherContext state otherState standing
    otherStanding lines defined
  cases shaped with
  | true => exact .error failures defined
  | false =>
      have reread : Agree matching (DefinedAlike matching)
          (literalAfter false checkpoint failure) (literalAfter false others otherFailure)
          (Value.Matches matching)
          (Abreast matching matching.Stretched (room - 1) (otherRoom - 1)) :=
        agree_bind (agree_report id) fun _ _ _ =>
          agree_bind (agree_rewind stretched within otherWithin id) fun _ _ _ =>
            agree_bind (agree_expectAny (by decide)) fun token other matched =>
              agree_pure (.terminal matched)
      subst standing
      exact reread _ _ _ _ otherStanding.symm lines defined

/-- Since these were the unread tokens, line breaks have been read at most. -/
structure Passed (matching : Matching) (tokens others : List Token) (state other : State) :
    Prop where
  rest : skipBreaks state.rest = skipBreaks tokens
  otherRest : skipBreaks other.rest = skipBreaks others
  within : state.rest.length ≤ tokens.length
  otherWithin : other.rest.length ≤ others.length
  defined : DefinedAlike matching state other

/-- Readers may remember the unread tokens as a checkpoint. No line break has been passed at that
    time. -/
theorem agree_unread_passed {next : List Token → Reader α} {otherNext : List Token → Reader β}
    {same : α → β → Prop} {post : State → State → Prop}
    (later : ∀ tokens others, matching.Stretched tokens others → tokens.length < room →
      others.length < otherRoom → Agree matching (Passed matching tokens others) (next tokens)
        (otherNext others) same post) :
    Agree matching (Abreast matching matching.Stretched room otherRoom) (unread >>= next)
      (unread >>= otherNext) same post := by
  intro context otherContext state otherState trails lines before
  rw [bind_of_ok unread_apply, bind_of_ok unread_apply]
  exact later _ _ before.rest before.within before.otherWithin _ _ _ _ trails lines
    ⟨rfl, rfl, Nat.le_refl _, Nat.le_refl _, before.defined⟩

/-- Looking past the line breaks at what comes next, both sides find the same kind. They can still
    go back to where they were. -/
theorem agree_pastBreaks {next : List Token → Option Kind → Reader α}
    {otherNext : List Token → Option Kind → Reader β} {same : α → β → Prop}
    {post : State → State → Prop}
    (later : ∀ tokens others kind, matching.Stretched tokens others → tokens.length < room →
      others.length < otherRoom →
        Agree matching (fun state other => Facing matching kind room otherRoom state other ∧
          Passed matching tokens others state other) (next tokens kind) (otherNext others kind)
          same post) :
    Agree matching (Abreast matching matching.Stretched room otherRoom)
      (do let tokens ← unread; skipNewlines; next tokens (← currentKind))
      (do let others ← unread; skipNewlines; otherNext others (← currentKind)) same post := by
  intro context otherContext state otherState trails lines before
  have fewer := length_skipBreaks_le state.rest
  have otherFewer := length_skipBreaks_le otherState.rest
  have facing : Facing matching ((skipBreaks state.rest).head?.map Token.kind) room otherRoom
      { state with rest := skipBreaks state.rest }
      { otherState with rest := skipBreaks otherState.rest } :=
    { rest := before.rest.loose
      defined := before.defined
      within := Nat.lt_of_le_of_lt fewer before.within
      otherWithin := Nat.lt_of_le_of_lt otherFewer before.otherWithin
      kind := rfl }
  have passed : Passed matching state.rest otherState.rest
      { state with rest := skipBreaks state.rest }
      { otherState with rest := skipBreaks otherState.rest } :=
    ⟨skipBreaks_skipBreaks _, skipBreaks_skipBreaks _, fewer, otherFewer, before.defined⟩
  have kinds := facing.rest.fronts.same_kind
  rw [bind_of_ok unread_apply, bind_of_ok unread_apply, bind_of_ok skipNewlines_apply,
    bind_of_ok skipNewlines_apply, bind_of_ok currentKind_apply, bind_of_ok currentKind_apply]
  change Results _ _ _ _ (next _ ((skipBreaks state.rest).head?.map Token.kind) _ _)
    (otherNext _ ((skipBreaks otherState.rest).head?.map Token.kind) _ _)
  rw [← kinds]
  exact later _ _ _ before.rest before.within before.otherWithin _ _ _ _ trails lines
    ⟨facing, passed⟩

/-- The strategies settle the open decisions of the grammar alike. At the end of a chain,
    each of them may leave behind the line breaks that it has passed. -/
structure Strategy.Agree (matching : Matching) (strategy other : Strategy) : Prop where
  initialValue : ∀ {room otherRoom},
    Reader.Agree matching (Abreast matching matching.Stretched room otherRoom)
      strategy.initialValue other.initialValue (Value.Matches matching)
      (Abreast matching matching.Stretched (room - 1) (otherRoom - 1))
  endChain : ∀ {tokens others room otherRoom}, matching.Stretched tokens others →
    tokens.length < room → others.length < otherRoom →
      Reader.Agree matching (Passed matching tokens others) (strategy.endChain tokens)
        (other.endChain others) (fun _ _ => True)
        (Abreast matching matching.Loose room otherRoom)

/-- Going back agrees with itself: it settles its open decisions alike on both sides, both for
    initial values and for chains. -/
theorem backtracking_agrees : Strategy.Agree matching .backtracking .backtracking where
  initialValue := initialValue_agrees
  endChain stretched within otherWithin :=
    (agree_rewind stretched within otherWithin (·.defined)).weaken id (·.loose)

/-- Statements that match. -/
def Alike (matching : Matching) (statement other : Statement) : Prop :=
  Phrase.Matches matching (.compound statement) (.compound other)

/-- Declarations on matching tokens match, if the strategies on both sides agree about initial
    values. -/
theorem declaration_agrees {strategy other : Strategy} (agreed : strategy.Agree matching other) :
    Agree matching (Abreast matching matching.Stretched room otherRoom) strategy.declaration
      other.declaration (Alike matching)
      (Abreast matching matching.Stretched (room - 1) (otherRoom - 1)) := by
  apply agree_production (by decide)
  refine agree_bind (agree_expect (by decide)) fun name otherName names => ?_
  refine agree_bind (agree_expect (by decide)) fun _ _ _ => ?_
  refine agree_bind (agree_expect (by decide)) fun type otherType types => ?_
  refine agree_bind (agree_expect (by decide)) fun _ _ _ => ?_
  exact agree_bind agreed.initialValue fun value otherValue values =>
    agree_return (.declaration names types values) (by omega) (by omega)

/-- Assignments on matching tokens match, both the name that is assigned to and the expression. -/
theorem manipulation_agrees :
    Agree matching (Abreast matching matching.Stretched room otherRoom) manipulation manipulation
      (Alike matching) (Abreast matching matching.Stretched (room - 1) (otherRoom - 1)) := by
  apply agree_production (by decide)
  refine agree_bind (agree_expect (by decide)) fun target otherTarget targets => ?_
  refine agree_bind (agree_expect (by decide)) fun _ _ _ => ?_
  exact agree_bind expression_agrees fun value otherValue values =>
    agree_return (.manipulation targets values) (by omega) (by omega)

/-- Calls that stand as statements match on matching tokens, since calls do. -/
theorem callStatement_agrees :
    Agree matching (Abreast matching matching.Stretched room otherRoom) callStatement
      callStatement (Alike matching)
      (Abreast matching matching.Stretched (room - 1) (otherRoom - 1)) :=
  agree_bind call_agrees fun _ _ calls => agree_pure (.call calls)

/-- Return statements on matching tokens match, both the keyword and the operand that is
    returned. -/
theorem returnValue_agrees :
    Agree matching (Abreast matching matching.Stretched room otherRoom) returnValue returnValue
      (Alike matching) (Abreast matching matching.Stretched (room - 1) (otherRoom - 1)) := by
  apply agree_production (by decide)
  refine agree_bind (agree_expect (by decide)) fun keyword otherKeyword keywords => ?_
  exact agree_bind (agree_expectAny (by decide)) fun value otherValue values =>
    agree_return (.returnValue keywords values) (by omega) (by omega)

/-- A line ends on both sides or on neither, and in the latter case what stands there is blamed
    alike. -/
theorem lineEnd_agrees :
    Agree matching (Abreast matching matching.Stretched room otherRoom) lineEnd lineEnd
      (fun _ _ => True) (Abreast matching matching.Stretched room otherRoom) := by
  refine agree_current fun first second fronts => ?_
  have wording := fronts.same_wording
  have shown := fronts.shown
  cases fronts with
  | none => exact agree_pure trivial
  | lineBreak isBreak otherBreak lines =>
      simp only [isBreak, otherBreak, true_or, if_true]
      exact agree_pure trivial
  | token matched =>
      rename_i token other
      simp only [matching.same_kind matched]
      by_cases ending : other.kind = .newline ∨ other.kind = .closeBlock
      · rw [if_pos ending, if_pos ending]
        exact agree_pure trivial
      · rw [if_neg ending, if_neg ending]
        exact agree_fail (congrArg ("expected end of line, got " ++ ·) wording) shown

/-- What starts with a name is the same kind of statement on both sides, as the token after the name
    decides it. The statements match. -/
theorem namedStatement_agrees {strategy other : Strategy}
    (agreed : strategy.Agree matching other) :
    Agree matching (Facing matching (some .identifier) room otherRoom) strategy.namedStatement
      other.namedStatement (Alike matching)
      (Abreast matching matching.Stretched (room - 1) (otherRoom - 1)) := by
  refine agree_nextKind (by decide) fun following => ?_
  have refused : Agree matching (Facing matching (some .identifier) room otherRoom)
      (do advance; (unexpected [.colon, .assign, .leftParen] : Reader Statement))
      (do advance; (unexpected [.colon, .assign, .leftParen] : Reader Statement)) (Alike matching)
      (Abreast matching matching.Stretched (room - 1) (otherRoom - 1)) :=
    agree_bind (agree_advance (by decide)) fun _ _ _ => agree_unexpected _
  cases following with
  | none => exact refused
  | some kind =>
      cases kind
      case colon => exact (declaration_agrees agreed).weaken (·.toAbreast) id
      case assign => exact manipulation_agrees.weaken (·.toAbreast) id
      case leftParen => exact callStatement_agrees.weaken (·.toAbreast) id
      all_goals exact refused

/-! ## Compound statements -/

/-- Lists of statements that match. -/
def AllAlike (matching : Matching) (list others : List Statement) : Prop :=
  Phrase.Matches matching (.statements list) (.statements others)

/-- Blocks that match. -/
def BlockAlike (matching : Matching) (body other : Block Statement) : Prop :=
  Phrase.Matches matching (.block body) (.block other)

/-- Branches that match. -/
structure BranchAlike (matching : Matching) (branch other : Branch Statement) : Prop where
  keyword : matching.token branch.keyword other.keyword
  condition : branch.condition.Matches matching other.condition
  body : BlockAlike matching branch.body other.body

/-- Continuations that match. -/
def ContinuedAlike (matching : Matching)
    (chain other : List (Branch Statement) × Option (Block Statement)) : Prop :=
  Phrase.Matches matching (.continuation chain.1 chain.2) (.continuation other.1 other.2)

/-- Where no token is left, a chain ends for every bound as it does for the least one. -/
theorem continuation_at_end (strategy : Strategy) (block : Reader (Block Statement)) (bound : Nat)
    (context : Context) (state : State) (empty : state.rest = []) :
    strategy.continuation block bound context state =
      strategy.continuation block 0 context state := by
  obtain ⟨rest, functions, events⟩ := state
  subst empty
  cases bound <;> rfl

/-- Parameters on matching tokens match, both the name of each and its type. -/
theorem parameter_agrees :
    Agree matching (Abreast matching matching.Stretched room otherRoom) parameter parameter
      (Parameter.Matches matching)
      (Abreast matching matching.Stretched (room - 1) (otherRoom - 1)) := by
  refine agree_bind (agree_expect (by decide)) fun name otherName names => ?_
  refine agree_bind (agree_expect (by decide)) fun _ _ _ => ?_
  exact agree_bind (agree_expect (by decide)) fun type otherType types =>
    agree_return ⟨names, types⟩ (by omega) (by omega)

/-- Result types on matching tokens match. There is one on both sides or on neither, and the null
    type counts as none. -/
theorem resultType_agrees :
    Agree matching (Abreast matching matching.Stretched room otherRoom) resultType resultType
      (Option.Rel matching.token) (Abreast matching matching.Stretched room otherRoom) := by
  refine agree_accept? rfl (fun _ _ _ => ?_) (agree_pure .none)
  refine agree_bind (agree_expectAny (by decide)) fun type otherType types => ?_
  have identifiers : type.isIdentifier = otherType.isIdentifier := by
    rw [Token.isIdentifier, Token.isIdentifier, matching.same_kind types]
  rw [identifiers]
  by_cases named : otherType.isIdentifier = true
  · rw [if_pos named, if_pos named]
    exact agree_return (.some types) (by omega) (by omega)
  · rw [if_neg named, if_neg named]
    exact agree_return .none (by omega) (by omega)

/-- Matching definitions leave the same placeholder, as just as many have been met before them on
    both sides. -/
theorem agree_hoist {definition other : Definition}
    (definitions : definition.Matches matching other) :
    Agree matching (Abreast matching matching.Stretched room otherRoom) (hoist definition)
      (hoist other) (Alike matching) (Abreast matching matching.Stretched room otherRoom) := by
  intro context otherContext state otherState trails lines before
  have indices := before.defined.length_eq
  have placed : Alike matching (.hoisted state.functions.length definition.keyword.line)
      (.hoisted otherState.functions.length other.keyword.line) := by
    rw [indices]
    exact .hoisted ⟨rfl, matching.same_line definitions.keyword⟩
  exact .ok placed
    { rest := before.rest
      defined := List.rel_append before.defined (.cons definitions .nil)
      within := before.within
      otherWithin := before.otherWithin }

/-- Of statements that match, both end with a block or neither does. -/
theorem Alike.endsWithBlock {statement other : Statement} (alike : Alike matching statement other) :
    statement.endsWithBlock = other.endsWithBlock := by
  cases alike <;> rfl

/-- Where nothing but line breaks is left, there are no statements, and the line breaks are read. -/
theorem statementsWithin_blank {strategy : Strategy} {block : Reader (Block Statement)}
    {bound : Nat} {context : Context} {state : State} (blank : skipBreaks state.rest = [])
    (bounded : state.rest.length < bound + 1) :
    strategy.statementsWithin block bound context state = .ok [] { state with rest := [] } := by
  obtain ⟨rest, functions, events⟩ := state
  cases bound with
  | zero =>
      obtain rfl := List.length_eq_zero_iff.mp (Nat.lt_one_iff.mp bounded)
      rfl
  | succ bound =>
      rw [Strategy.statementsWithin, bind_of_ok skipNewlines_apply]
      change (currentKind >>= _) context ⟨skipBreaks rest, functions, events⟩ = _
      rw [blank]
      rfl

/-- Without room for a token nothing but line breaks is left on either side. -/
theorem Abreast.blank {state other : State} (noRoom : room ≤ 1 ∨ otherRoom ≤ 1)
    (abreast : Abreast matching matching.Loose room otherRoom state other) :
    skipBreaks state.rest = [] ∧ skipBreaks other.rest = [] := by
  have skipped : Abreast matching matching.Stretched room otherRoom
      { state with rest := skipBreaks state.rest } { other with rest := skipBreaks other.rest } :=
    { rest := abreast.rest
      defined := abreast.defined
      within := Nat.lt_of_le_of_lt (length_skipBreaks_le _) abreast.within
      otherWithin := Nat.lt_of_le_of_lt (length_skipBreaks_le _) abreast.otherWithin }
  exact skipped.ended noRoom

/-- Token lists of which one is exhausted have no statements on either side. The strategies and the
    blocks do not come into it. -/
theorem statementsWithin_ended {strategy otherStrategy : Strategy}
    {block otherBlock : Reader (Block Statement)}
    {bound otherBound : Nat} (noRoom : room ≤ 1 ∨ otherRoom ≤ 1) (bounded : room ≤ bound + 1)
    (otherBounded : otherRoom ≤ otherBound + 1) :
    Agree matching (Abreast matching matching.Loose room otherRoom)
      (strategy.statementsWithin block bound)
      (otherStrategy.statementsWithin otherBlock otherBound) (AllAlike matching)
      (Abreast matching matching.Stretched room otherRoom) := by
  intro context otherContext state otherState trails lines before
  obtain ⟨blank, otherBlank⟩ := before.blank noRoom
  rw [statementsWithin_blank blank (Nat.lt_of_lt_of_le before.within bounded),
    statementsWithin_blank otherBlank (Nat.lt_of_lt_of_le before.otherWithin otherBounded)]
  exact .ok .nil ⟨.nil, before.defined, Nat.zero_lt_of_lt before.within,
    Nat.zero_lt_of_lt before.otherWithin⟩

section Compound

variable {strategy otherStrategy : Strategy} {block otherBlock : Reader (Block Statement)}
  {limit otherLimit : Nat} (agreed : strategy.Agree matching otherStrategy)
  (blocks : Reads matching limit otherLimit block otherBlock (BlockAlike matching))
  (rooms : room ≤ limit + 1) (otherRooms : otherRoom ≤ otherLimit + 1)
include blocks rooms otherRooms

/-- Loops over a range match on matching tokens, if blocks do where there is less room. -/
theorem forRange_agrees :
    Agree matching (Abreast matching matching.Stretched room otherRoom) (forRange block)
      (forRange otherBlock) (Alike matching)
      (Abreast matching matching.Stretched (room - 1) (otherRoom - 1)) := by
  apply agree_production (by decide)
  refine agree_bind (agree_expect (by decide)) fun keyword otherKeyword keywords => ?_
  refine agree_bind (agree_expect (by decide)) fun counter otherCounter counters => ?_
  refine agree_bind (agree_expect (by decide)) fun _ _ _ => ?_
  refine agree_bind (agree_expect (by decide)) fun _ _ _ => ?_
  refine agree_bind (agree_expect (by decide)) fun _ _ _ => ?_
  refine agree_bind (agree_expectAny (by decide)) fun start otherStart starts => ?_
  refine agree_bind (agree_expect (by decide)) fun _ _ _ => ?_
  refine agree_bind (agree_expectAny (by decide)) fun stop otherStop stops => ?_
  refine agree_bind (agree_expect (by decide)) fun _ _ _ => ?_
  exact agree_bind (blocks (by omega) (by omega)) fun body other bodies =>
    agree_return (.forRange keywords counters starts stops bodies) (by omega) (by omega)

/-- Loops with a condition match on matching tokens, if blocks do where there is less room. -/
theorem whileLoop_agrees :
    Agree matching (Abreast matching matching.Stretched room otherRoom) (whileLoop block)
      (whileLoop otherBlock) (Alike matching)
      (Abreast matching matching.Stretched (room - 1) (otherRoom - 1)) := by
  apply agree_production (by decide)
  refine agree_bind (agree_expect (by decide)) fun keyword otherKeyword keywords => ?_
  refine agree_bind comparison_agrees fun condition otherCondition conditions => ?_
  exact agree_bind (blocks (by omega) (by omega)) fun body other bodies =>
    agree_return (.whileLoop keywords conditions bodies) (by omega) (by omega)

/-- Branches on matching tokens match, if blocks do. The word that starts them is no line break. -/
theorem branch_agrees {word : Kind} (noBreak : word ≠ .newline) :
    Agree matching (Abreast matching matching.Stretched room otherRoom) (branch block word)
      (branch otherBlock word) (BranchAlike matching)
      (Abreast matching matching.Stretched (room - 1) (otherRoom - 1)) := by
  refine agree_bind (agree_expect noBreak) fun keyword otherKeyword keywords => ?_
  refine agree_bind comparison_agrees fun condition otherCondition conditions => ?_
  exact agree_bind (blocks (by omega) (by omega)) fun body other bodies =>
    agree_return ⟨keywords, conditions, bodies⟩ (by omega) (by omega)

/-- Definitions on matching tokens leave matching placeholders, and the definitions themselves match
    among those met so far. -/
theorem definition_agrees :
    Agree matching (Abreast matching matching.Stretched room otherRoom) (definition block)
      (definition otherBlock) (Alike matching)
      (Abreast matching matching.Stretched (room - 1) (otherRoom - 1)) := by
  apply agree_production (by decide)
  refine agree_bind (agree_expect (by decide)) fun keyword otherKeyword keywords => ?_
  refine agree_bind (agree_expect (by decide)) fun name otherName names => ?_
  refine agree_bind (parenthesized_agrees fun _ _ => parameter_agrees)
    fun parameters otherParameters inside => ?_
  refine agree_bind resultType_agrees fun returns otherReturns results => ?_
  refine agree_bind (blocks (by omega) (by omega)) fun body other bodies => ?_
  have definitions : Definition.Matches matching ⟨keyword, name, parameters, returns, body⟩
      ⟨otherKeyword, otherName, otherParameters, otherReturns, other⟩ :=
    ⟨keywords, names, inside, results, bodies⟩
  exact (agree_hoist definitions).weaken id fun after => after.mono (by omega) (by omega)

include agreed

/-- What continues a chain, or ends it with the line breaks before what comes next. -/
theorem continuation_agrees {bound otherBound : Nat} (bounded : room ≤ bound + 1)
    (otherBounded : otherRoom ≤ otherBound + 1) :
    Agree matching (Abreast matching matching.Stretched room otherRoom)
      (strategy.continuation block bound) (otherStrategy.continuation otherBlock otherBound)
      (ContinuedAlike matching) (Abreast matching matching.Loose room otherRoom) := by
  have nothing {room otherRoom : Nat} :
      Agree matching (Abreast matching matching.Stretched room otherRoom)
        (strategy.continuation block 0) (otherStrategy.continuation otherBlock 0)
        (ContinuedAlike matching) (Abreast matching matching.Loose room otherRoom) :=
    agree_unread_passed fun tokens others stretched within otherWithin =>
      agree_bind (agreed.endChain stretched within otherWithin) fun _ _ _ => agree_pure .chainEnd
  induction bound generalizing otherBound room otherRoom with
  | zero =>
      exact agree_ended (.inl bounded) (continuation_at_end _ _ _) (continuation_at_end _ _ _)
        nothing
  | succ bound ih =>
      cases otherBound with
      | zero =>
          exact agree_ended (.inr otherBounded) (continuation_at_end _ _ _)
            (continuation_at_end _ _ _) nothing
      | succ otherBound =>
          refine agree_pastBreaks fun tokens others kind stretched within otherWithin => ?_
          have ended : Agree matching
              (fun state other => Facing matching kind room otherRoom state other ∧
                Passed matching tokens others state other)
              (do strategy.endChain tokens; return ([], none))
              (do otherStrategy.endChain others; return ([], none))
              (ContinuedAlike matching) (Abreast matching matching.Loose room otherRoom) :=
            (agree_bind (agreed.endChain stretched within otherWithin) fun _ _ _ =>
              agree_pure .chainEnd).weaken (·.2) id
          cases kind with
          | none => exact ended
          | some kind =>
              cases kind
              case elifWord =>
                refine agree_bind ((branch_agrees blocks rooms otherRooms (by decide)).weaken
                  (·.1.toAbreast) id) fun next otherNext nexts => ?_
                refine agree_bind (ih (by omega) (by omega) (by omega) (by omega))
                  fun chain otherChain chains => ?_
                exact agree_return (.branch nexts.keyword nexts.condition nexts.body chains)
                  (by omega) (by omega)
              case elseWord =>
                refine agree_bind ((agree_advance (by decide)).weaken (·.1) id) fun _ _ _ => ?_
                refine agree_bind (blocks (by omega) (by omega)) fun body other bodies => ?_
                exact (agree_return (.otherwise bodies) (by omega) (by omega)).weaken (·.loose) id
              all_goals exact ended

/-- Chains on matching tokens match. One side may have looked past more line breaks than the other,
    so the tokens behind them match up to line breaks. -/
theorem ifChain_agrees :
    Agree matching (Abreast matching matching.Stretched room otherRoom) (strategy.ifChain block)
      (otherStrategy.ifChain otherBlock)
      (fun statement other => Alike matching statement other ∧ other.endsWithBlock = true)
      (Abreast matching matching.Loose (room - 1) (otherRoom - 1)) := by
  apply agree_production (by decide)
  refine agree_bind (branch_agrees blocks rooms otherRooms (by decide)) fun first other firsts => ?_
  refine agree_unread fun rest others _ within otherWithin => ?_
  refine agree_bind (continuation_agrees agreed blocks (by omega) (by omega) (Nat.le_refl _)
    (Nat.le_refl _)) fun chain otherChain chains => ?_
  exact agree_return
    ⟨.ifChain (.branch firsts.keyword firsts.condition firsts.body chains), rfl⟩
    (by omega) (by omega)

/-- Every statement but a chain of branches ends at a token, so what is behind it matches one by
    one. The kind of its first token decides what it is. -/
theorem statementAt_agrees {kind : Option Kind} (noChain : kind ≠ some .ifWord) :
    Agree matching (Facing matching kind room otherRoom) (strategy.statementAt block kind)
      (otherStrategy.statementAt otherBlock kind) (Alike matching)
      (Abreast matching matching.Stretched (room - 1) (otherRoom - 1)) := by
  have refused : Agree matching (Facing matching kind room otherRoom)
      (do fail (.expectedStatement (← current)) : Reader Statement)
      (do fail (.expectedStatement (← current)) : Reader Statement) (Alike matching)
      (Abreast matching matching.Stretched (room - 1) (otherRoom - 1)) := by
    refine Agree.weaken (agree_current fun first second fronts => ?_) (·.toAbreast) id
    exact agree_fail (congrArg ("expected a statement, got " ++ ·) fronts.same_wording)
      fronts.shown
  have late : Agree matching (Facing matching kind room otherRoom)
      (fail .lateImport : Reader Statement) (fail .lateImport : Reader Statement) (Alike matching)
      (Abreast matching matching.Stretched (room - 1) (otherRoom - 1)) :=
    (agree_fail_plain rfl).weaken (·.toAbreast) id
  cases kind with
  | none => exact refused
  | some kind =>
      cases kind
      case forWord => exact (forRange_agrees blocks rooms otherRooms).weaken (·.toAbreast) id
      case whileWord => exact (whileLoop_agrees blocks rooms otherRooms).weaken (·.toAbreast) id
      case ifWord => exact absurd rfl noChain
      case defWord => exact (definition_agrees blocks rooms otherRooms).weaken (·.toAbreast) id
      case returnWord => exact returnValue_agrees.weaken (·.toAbreast) id
      case print => exact callStatement_agrees.weaken (·.toAbreast) id
      case identifier => exact namedStatement_agrees agreed
      case importWord => exact late
      case fromWord => exact late
      all_goals exact refused

/-- After a chain of branches nothing has to follow, so line breaks may have been left
    behind. After any other statement the tokens stand side by side. -/
theorem terminatedStatement_agrees :
    Agree matching (Abreast matching matching.Stretched room otherRoom)
      (strategy.terminatedStatement block) (otherStrategy.terminatedStatement otherBlock)
      (Alike matching) (Abreast matching matching.Loose (room - 1) (otherRoom - 1)) := by
  apply agree_facing
  intro kind
  by_cases chain : kind = some .ifWord
  · obtain rfl := chain
    have chains := (ifChain_agrees agreed blocks rooms otherRooms).weaken
      (fun facing : Facing matching (some .ifWord) _ _ _ _ => facing.toAbreast) id
    apply agree_bind (agree_production (by decide) (agree_facing_currentKind chains))
    rintro result other ⟨results, ends⟩
    rw [results.endsWithBlock, if_pos ends, if_pos ends]
    exact agree_pure results
  · have statements := statementAt_agrees agreed blocks rooms otherRooms chain
    apply agree_bind (agree_production (by decide) (agree_facing_currentKind statements))
    intro result other results
    rw [results.endsWithBlock]
    by_cases ends : other.endsWithBlock = true
    · rw [if_pos ends, if_pos ends]
      exact (agree_pure results).weaken (·.loose) id
    · rw [if_neg ends, if_neg ends]
      exact agree_bind lineEnd_agrees fun _ _ _ => (agree_pure results).weaken (·.loose) id

/-- Lists of statements on matching tokens match, whatever the bounds are, if these are large enough
    for the room there is. -/
theorem statementsWithin_agrees {bound otherBound : Nat} (bounded : room ≤ bound + 1)
    (otherBounded : otherRoom ≤ otherBound + 1) :
    Agree matching (Abreast matching matching.Loose room otherRoom)
      (strategy.statementsWithin block bound)
      (otherStrategy.statementsWithin otherBlock otherBound) (AllAlike matching)
      (Abreast matching matching.Stretched room otherRoom) := by
  -- one side may have more line breaks, so the bounds count down from different numbers
  induction bound generalizing otherBound room otherRoom with
  | zero => exact statementsWithin_ended (.inl bounded) bounded otherBounded
  | succ bound ih =>
      cases otherBound with
      | zero => exact statementsWithin_ended (.inr otherBounded) bounded otherBounded
      | succ otherBound =>
          refine agree_bind agree_skipNewlines fun _ _ _ => agree_currentKind fun kind => ?_
          have stopped : Agree matching (Facing matching kind room otherRoom) (pure [])
              (pure []) (AllAlike matching)
              (Abreast matching matching.Stretched room otherRoom) :=
            (agree_pure .nil).weaken (·.toAbreast) id
          have continued : Agree matching (Facing matching kind room otherRoom)
              (do
                let first ← strategy.terminatedStatement block
                return first :: (← strategy.statementsWithin block bound))
              (do
                let first ← otherStrategy.terminatedStatement otherBlock
                return first :: (← otherStrategy.statementsWithin otherBlock otherBound))
              (AllAlike matching) (Abreast matching matching.Stretched room otherRoom) := by
            refine agree_bind ((terminatedStatement_agrees agreed blocks rooms otherRooms).weaken
              (·.toAbreast) id) fun first other firsts => ?_
            exact agree_bind (ih (by omega) (by omega) (by omega) (by omega))
              fun list others lists => agree_return (.cons firsts lists) (by omega) (by omega)
          cases kind with
          | none => exact stopped
          | some kind =>
              cases kind
              case closeBlock => exact stopped
              all_goals exact continued

/-- Room for the statements of a list is room for the blocks in it. -/
theorem statements_agrees :
    Agree matching (Abreast matching matching.Loose room otherRoom) (strategy.statements block)
      (otherStrategy.statements otherBlock) (AllAlike matching)
      (Abreast matching matching.Stretched room otherRoom) :=
  agree_unread fun rest others _ within otherWithin =>
    (statementsWithin_agrees agreed blocks (by omega) (by omega) (Nat.le_refl _)
      (Nat.le_refl _)).weaken id fun after => after.mono within otherWithin

end Compound

/-- Where no token is left, there is no block for any bound, and the colon is missing. -/
theorem blockWithin_at_end (strategy : Strategy) (bound : Nat) (context : Context) (state : State)
    (empty : state.rest = []) :
    strategy.blockWithin bound context state =
      production "block" (unexpected [.colon]) context state := by
  obtain ⟨rest, functions, events⟩ := state
  subst empty
  cases bound <;> rfl

/-- Blocks on matching tokens match, whatever the bounds are, if these are large enough. The
    induction is on the bound of the first side, which is lower inside a block. -/
theorem blockWithin_agrees {strategy otherStrategy : Strategy}
    (agreed : strategy.Agree matching otherStrategy) {bound otherBound : Nat} :
    Reads matching (bound + 1) (otherBound + 1) (strategy.blockWithin bound)
      (otherStrategy.blockWithin otherBound) (BlockAlike matching) := by
  have ended {room otherRoom bound otherBound : Nat} (noRoom : room ≤ 1 ∨ otherRoom ≤ 1) :
      Agree matching (Abreast matching matching.Stretched room otherRoom)
        (strategy.blockWithin bound) (otherStrategy.blockWithin otherBound)
        (BlockAlike matching)
        (Abreast matching matching.Stretched (room - 1) (otherRoom - 1)) :=
    agree_ended noRoom (blockWithin_at_end _ _) (blockWithin_at_end _ _)
      (agree_production (by decide) (agree_unexpected _))
  induction bound generalizing otherBound with
  | zero => exact fun {_ _} rooms _ => ended (.inl rooms)
  | succ bound ih =>
      cases otherBound with
      | zero => exact fun {_ _} _ otherRooms => ended (.inr otherRooms)
      | succ otherBound =>
          intro room otherRoom rooms otherRooms
          apply agree_production (by decide)
          refine agree_bind agree_currentLine fun line otherLine lines => ?_
          refine agree_bind (agree_expect (by decide)) fun _ _ _ => ?_
          refine agree_bind agree_expect_newline fun _ _ _ => ?_
          refine agree_bind (statements_agrees agreed ih (by omega) (by omega))
            fun list others lists => ?_
          refine agree_currentKind fun kind => ?_
          have unclosed : Agree matching (Facing matching kind (room - 1 - 1) (otherRoom - 1 - 1))
              (fail .unterminatedBlock : Reader (Block Statement))
              (fail .unterminatedBlock : Reader (Block Statement))
              (BlockAlike matching)
              (Abreast matching matching.Stretched (room - 1) (otherRoom - 1)) :=
            (agree_fail_plain rfl).weaken (·.toAbreast) id
          cases kind with
          | none => exact unclosed
          | some kind =>
              cases kind
              case closeBlock =>
                cases lists with
                | nil =>
                    have empty : Agree matching
                        (Facing matching (some .closeBlock) (room - 1 - 1) (otherRoom - 1 - 1))
                        (fail .emptyBlock : Reader PUnit) (fail .emptyBlock : Reader PUnit)
                        (fun _ _ => True) fun _ _ => False :=
                      (agree_fail_plain rfl).weaken (·.toAbreast) id
                    exact agree_bind empty fun _ _ _ => agree_of_absurd id
                | cons first later =>
                    exact agree_bind (agree_advance (by decide)) fun _ _ _ =>
                      agree_return (.block lines (.cons first later)) (by omega) (by omega)
              all_goals exact unclosed

/-! ## Programs -/

/-- Import clauses that match. -/
structure ClauseAlike (matching : Matching) (clause other : ImportClause) : Prop where
  module : matching.token clause.module other.module
  item : Option.Rel matching.token clause.item other.item
  line : matching.line clause.line other.line

/-- The programs match, and so do their import clauses. -/
structure ProgramAlike (matching : Matching) (program other : Program) : Prop where
  clause : ClauseAlike matching program.importClause other.importClause
  program : program.Matches matching other

/-- Import clauses of another module are refused on both sides, since the module has one name on
    both. -/
theorem runtime_agrees {clause other : ImportClause} (clauses : ClauseAlike matching clause other) :
    Agree matching (Abreast matching matching.Stretched room otherRoom)
      (if clause.module.lexeme ≠ runtimeModule then do
          failOn clause.module.line .missingImport
          return clause
        else return clause : Reader ImportClause)
      (if other.module.lexeme ≠ runtimeModule then do
          failOn other.module.line .missingImport
          return other
        else return other : Reader ImportClause)
      (ClauseAlike matching) (Abreast matching matching.Stretched room otherRoom) := by
  rw [matching.same_lexeme clauses.module]
  by_cases foreign : other.module.lexeme ≠ runtimeModule
  · rw [if_pos foreign, if_pos foreign]
    have failed : Agree matching (Abreast matching matching.Stretched room otherRoom)
        (failOn clause.module.line .missingImport : Reader PUnit)
        (failOn other.module.line .missingImport : Reader PUnit) (fun _ _ => True)
        (Abreast matching matching.Stretched room otherRoom) :=
      agree_failOn (matching.same_line clauses.module) rfl (by simp [SyntaxFault.shown]) (·.defined)
    exact agree_bind failed fun _ _ _ => agree_pure clauses
  · rw [if_neg foreign, if_neg foreign]
    exact agree_pure clauses

/-- Import clauses on matching tokens match, in the same one of their two forms. -/
theorem importClause_agrees :
    Agree matching (Abreast matching matching.Stretched room otherRoom) importClause importClause
      (ClauseAlike matching) (Abreast matching matching.Stretched room otherRoom) := by
  apply agree_production (by decide)
  refine agree_bind agree_currentLine fun line otherLine lines => agree_currentKind fun kind => ?_
  have missing (next : ImportClause → Reader ImportClause) :
      Agree matching (Facing matching kind room otherRoom) (fail .missingImport >>= next)
        (fail .missingImport >>= next) (ClauseAlike matching)
        (Abreast matching matching.Stretched room otherRoom) := by
    have failed : Agree matching (Facing matching kind room otherRoom)
        (fail .missingImport : Reader ImportClause) (fail .missingImport : Reader ImportClause)
        (fun _ _ => True) fun _ _ => False :=
      (agree_fail_plain rfl).weaken (·.toAbreast) id
    exact agree_bind failed fun _ _ _ => agree_of_absurd id
  cases kind with
  | none => exact missing _
  | some kind =>
      cases kind
      case importWord =>
        refine agree_bind (agree_advance (by decide)) fun _ _ _ => ?_
        refine agree_bind (agree_expect (by decide)) fun module otherModule modules => ?_
        exact (runtime_agrees ⟨modules, .none, lines⟩).weaken id fun after =>
          after.mono (by omega) (by omega)
      case fromWord =>
        refine agree_bind (agree_advance (by decide)) fun _ _ _ => ?_
        refine agree_bind (agree_expect (by decide)) fun module otherModule modules => ?_
        refine agree_bind (agree_expect (by decide)) fun _ _ _ => ?_
        refine agree_bind (agree_expectAny (by decide)) fun item otherItem items => ?_
        exact (runtime_agrees ⟨modules, .some items, lines⟩).weaken id fun after =>
          after.mono (by omega) (by omega)
      all_goals exact missing _

/-- What stands inside the production of a program agrees: the import clause, the end of its line,
    and the statements up to the end of the input. -/
theorem programInside_agrees {strategy otherStrategy : Strategy}
    (agreed : strategy.Agree matching otherStrategy) :
    Agree matching (Abreast matching matching.Loose room otherRoom) strategy.programInside
      otherStrategy.programInside (ProgramAlike matching)
      (Abreast matching matching.Stretched room otherRoom) := by
  refine agree_bind agree_skipNewlines fun _ _ _ => ?_
  refine agree_bind importClause_agrees fun clause otherClause clauses => ?_
  refine agree_bind lineEnd_agrees fun _ _ _ => agree_unread fun rest others _ within
    otherWithin => ?_
  refine agree_bind ((statements_agrees agreed (blockWithin_agrees agreed) (by omega)
    (by omega)).weaken (·.loose) id) fun body other bodies => agree_currentKind fun kind => ?_
  cases kind with
  | some kind => exact (agree_fail_plain rfl).weaken (·.toAbreast) id
  | none =>
      intro context otherContext state otherState trails lines before
      exact .ok ⟨clauses, bodies, before.defined⟩ (before.toAbreast.mono within otherWithin)

/-- Strategies that agree read matching token lists as matching programs, or reject them for
    the same fault. -/
theorem program_results {strategy otherStrategy : Strategy}
    (agreed : strategy.Agree matching otherStrategy) {tokens others : List Token}
    (loose : matching.Loose tokens others)
    (lasts : matching.line (Token.lastLine tokens) (Token.lastLine others))
    (events otherEvents : Array Event) :
    Results matching ["parse", "program"] (ProgramAlike matching)
      (Abreast matching matching.Stretched (tokens.length + 1) (others.length + 1))
      (strategy.program ⟨["parse"], tokens.length, Token.lastLine tokens⟩ ⟨tokens, [], events⟩)
      (otherStrategy.program ⟨["parse"], others.length, Token.lastLine others⟩
        ⟨others, [], otherEvents⟩) := by
  have start : Abreast matching matching.Loose (tokens.length + 1) (others.length + 1)
      ⟨tokens, [], events⟩ ⟨others, [], otherEvents⟩ :=
    ⟨loose, List.Forall₂.nil, Nat.lt_succ_self _, Nat.lt_succ_self _⟩
  exact programInside_agrees agreed ⟨["parse", "program"], tokens.length, Token.lastLine tokens⟩
    ⟨["parse", "program"], others.length, Token.lastLine others⟩ _ _ rfl lasts start

end Offside.Reader

namespace Offside

/-- Matching token lists are both programs, with matching trees, or are rejected for the
    same fault. -/
theorem parse_agrees {matching : Matching} {tokens others : List Token}
    (loose : matching.Loose tokens others)
    (lasts : matching.line (Token.lastLine tokens) (Token.lastLine others)) :
    Traced.Agree (Reader.BlamedAlike matching ["parse", "program"]) (Program.Matches matching)
      (Program.parse tokens) (Program.parse others) := by
  intro events otherEvents
  have results := Reader.program_results Reader.backtracking_agrees loose lasts events otherEvents
  rw [Reader.Strategy.backtracking_program] at results
  simp only [Program.parse]
  generalize Reader.program _ _ = outcome at results
  generalize Reader.program _ _ = otherOutcome at results
  cases results with
  | ok values states => exact .ok values.program
  | error failures defined => exact .error failures

end Offside
