import Offside.Event

/-!
# Runs

When a computation that reports events succeeds and when it fails, said for the ways
in which the phases are put together. What was reported before a step does not
matter for whether it succeeds.
-/

namespace Offside.Traced

variable {α β : Type}

/-- Two computations one after the other, whatever their state is. The second one runs if the
    first succeeds. -/
theorem bind_apply {ε σ : Type} (first : EStateM ε σ α) (next : α → EStateM ε σ β) (state : σ) :
    (first >>= next) state =
      match first state with
      | .ok value after => next value after
      | .error failure after => .error failure after := by
  change EStateM.bind first next state = _
  unfold EStateM.bind
  cases first state <;> rfl

/-- A computation has an outcome exactly when its run succeeds, starting with nothing reported. -/
theorem outcome_ok_iff (action : Traced α) (value : α) :
    action.outcome = .ok value ↔ ∃ after, action #[] = .ok value after := by
  simp only [outcome, EStateM.run]
  cases action #[] with
  | ok result after => simp
  | error failure after => simp

/-- A sequence succeeds exactly if the first part does and the second one does from where the first
    has left off. -/
theorem bind_ok_iff {action : Traced α} {next : α → Traced β} {events after : Array Event}
    {value : β} :
    (action >>= next) events = .ok value after ↔
      ∃ middle between, action events = .ok middle between ∧
        next middle between = .ok value after := by
  change EStateM.bind action next events = .ok value after ↔ _
  unfold EStateM.bind
  cases action events with
  | ok middle between =>
      constructor
      · intro run
        exact ⟨middle, between, rfl, run⟩
      · rintro ⟨_, _, same, run⟩
        cases same
        exact run
  | error failure between => simp

/-- What is known to have an outcome succeeds with its value, and nothing is reported. -/
theorem lift_ok_iff {outcome : Except Failure α} {events after : Array Event} {value : α} :
    lift outcome events = .ok value after ↔ outcome = .ok value ∧ after = events := by
  cases outcome with
  | ok result =>
      change (EStateM.Result.ok result events = .ok value after) ↔ _
      simp [eq_comm]
  | error failure =>
      change (EStateM.Result.error failure events = .ok value after) ↔ _
      simp

/-- A computation has a failure as its outcome exactly when its run fails with it. -/
theorem outcome_error_iff (action : Traced α) (failure : Failure) :
    action.outcome = .error failure ↔ ∃ after, action #[] = .error failure after := by
  simp only [outcome, EStateM.run]
  cases action #[] with
  | ok result after => simp
  | error failure after => simp

/-- Two computations one after the other fail in the first or in the second. -/
theorem bind_error_iff {action : Traced α} {next : α → Traced β} {events after : Array Event}
    {failure : Failure} :
    (action >>= next) events = .error failure after ↔
      action events = .error failure after ∨
        ∃ middle between, action events = .ok middle between ∧
          next middle between = .error failure after := by
  change EStateM.bind action next events = .error failure after ↔ _
  unfold EStateM.bind
  cases action events with
  | ok middle between =>
      constructor
      · intro run
        exact .inr ⟨middle, between, rfl, run⟩
      · rintro (same | ⟨_, _, same, run⟩)
        · cases same
        · cases same
          exact run
  | error failure between => simp

/-- What is known to have failed fails with the same failure, and nothing is reported. -/
theorem lift_error_iff {outcome : Except Failure α} {events after : Array Event}
    {failure : Failure} :
    lift outcome events = .error failure after ↔ outcome = .error failure ∧ after = events := by
  cases outcome with
  | ok result =>
      change (EStateM.Result.ok result events = .error failure after) ↔ _
      simp
  | error other =>
      change (EStateM.Result.error other events = .error failure after) ↔ _
      simp [eq_comm]

/-- A report about the value of a computation is not part of its outcome. -/
theorem outcome_report (action : Traced α) (event : α → Event) :
    outcome (do let value ← action; report (event value); return value) = action.outcome := by
  change outcome (EStateM.bind action _) = _
  unfold outcome EStateM.run EStateM.bind
  cases action #[] with
  | ok value after => rfl
  | error failure after => rfl

/-! ## Two computations -/

/-- Both runs succeed with related values, or both fail with related failures. -/
inductive Results (failures : Failure → Failure → Prop) (same : α → β → Prop) :
    EStateM.Result Failure (Array Event) α → EStateM.Result Failure (Array Event) β → Prop where
  | ok {value other after otherAfter} (values : same value other) :
      Results failures same (.ok value after) (.ok other otherAfter)
  | error {failure other after otherAfter} (alike : failures failure other) :
      Results failures same (.error failure after) (.error other otherAfter)

/-- The computations have related results, whatever was reported before either. -/
def Agree (failures : Failure → Failure → Prop) (same : α → β → Prop) (action : Traced α)
    (other : Traced β) : Prop :=
  ∀ events otherEvents, Results failures same (action events) (other otherEvents)

variable {γ δ : Type} {failures : Failure → Failure → Prop} {same : α → β → Prop}
  {action : Traced α} {other : Traced β}

/-- Returning related values is agreement, whatever was reported before. -/
theorem agree_pure {value : α} {otherValue : β} (values : same value otherValue) :
    Agree failures same (pure value) (pure otherValue) :=
  fun _ _ => .ok values

/-- Failing with related failures is agreement, whatever values the two sides would have had
    otherwise. -/
theorem agree_throw {failure otherFailure : Failure} (alike : failures failure otherFailure) :
    Agree failures same (throw failure) (throw otherFailure) :=
  fun _ _ => .error alike

/-- Reporting one event on one side and another on the other makes no difference to agreement. -/
theorem agree_report (event otherEvent : Event) :
    Agree failures (fun _ _ => True) (report event) (report otherEvent) :=
  fun _ _ => .ok trivial

/-- Sequences agree if their first parts do and their second parts do on related values. -/
theorem agree_bind {next : α → Traced γ} {otherNext : β → Traced δ} {result : γ → δ → Prop}
    (first : Agree failures same action other)
    (second : ∀ value otherValue, same value otherValue →
      Agree failures result (next value) (otherNext otherValue)) :
    Agree failures result (action >>= next) (other >>= otherNext) := by
  intro events otherEvents
  have results := first events otherEvents
  change Results failures result (EStateM.bind action next events)
    (EStateM.bind other otherNext otherEvents)
  unfold EStateM.bind
  generalize action events = outcome at results
  generalize other otherEvents = otherOutcome at results
  cases results with
  | ok values => exact second _ _ values _ _
  | error alike => exact .error alike

/-- Agreement for some relations is agreement for weaker ones, of failures as well as of values. -/
theorem Agree.mono {weaker : Failure → Failure → Prop} {result : α → β → Prop}
    (agree : Agree failures same action other)
    (alike : ∀ {failure otherFailure}, failures failure otherFailure →
      weaker failure otherFailure)
    (values : ∀ {value otherValue}, same value otherValue → result value otherValue) :
    Agree weaker result action other := by
  intro events otherEvents
  have results := agree events otherEvents
  generalize action events = outcome at results
  generalize other otherEvents = otherOutcome at results
  cases results with
  | ok related => exact .ok (values related)
  | error related => exact .error (alike related)

/-- What is known of every value that a computation can have holds of related values. -/
theorem Agree.strengthen (agree : Agree failures same action other) {known : α → Prop}
    {otherKnown : β → Prop}
    (values : ∀ {events value after}, action events = .ok value after → known value)
    (otherValues : ∀ {events value after}, other events = .ok value after → otherKnown value) :
    Agree failures (fun value otherValue => same value otherValue ∧ known value ∧
      otherKnown otherValue) action other := by
  intro events otherEvents
  have results := agree events otherEvents
  generalize run : action events = outcome at results
  generalize otherRun : other otherEvents = otherOutcome at results
  cases results with
  | ok related => exact .ok ⟨related, values run, otherValues otherRun⟩
  | error alike => exact .error alike

/-- A failure that is caught is handled on both sides, so catching agrees if the handlers of related
    failures do. -/
theorem agree_tryCatch {handler : Failure → Traced α} {otherHandler : Failure → Traced β}
    (attempt : Agree failures same action other)
    (handled : ∀ failure otherFailure, failures failure otherFailure →
      Agree failures same (handler failure) (otherHandler otherFailure)) :
    Agree failures same (tryCatch action handler) (tryCatch other otherHandler) := by
  intro events otherEvents
  have results := attempt events otherEvents
  change Results failures same (EStateM.tryCatch action handler events)
    (EStateM.tryCatch other otherHandler otherEvents)
  unfold EStateM.tryCatch
  generalize action events = outcome at results
  generalize other otherEvents = otherOutcome at results
  cases results with
  | ok values => exact .ok values
  | error alike => exact handled _ _ alike _ _

/-- Computations that agree on equal values have the same values as outcomes. -/
theorem Agree.outcome_ok_iff {other : Traced α} (agree : Agree failures Eq action other)
    (value : α) : action.outcome = .ok value ↔ other.outcome = .ok value := by
  have results := agree #[] #[]
  rw [Traced.outcome_ok_iff, Traced.outcome_ok_iff]
  generalize action #[] = outcome at results
  generalize other #[] = otherOutcome at results
  cases results with
  | ok values => simp [values]
  | error alike => simp

/-- If one of two computations that agree fails, so does the other. -/
theorem Agree.outcome_error (agree : Agree failures same action other) {failure : Failure}
    (failed : action.outcome = .error failure) :
    ∃ otherFailure, other.outcome = .error otherFailure ∧ failures failure otherFailure := by
  have results := agree #[] #[]
  obtain ⟨after, run⟩ := (outcome_error_iff _ _).mp failed
  rw [run] at results
  generalize otherRun : other #[] = otherOutcome at results
  cases results with
  | error alike => exact ⟨_, (outcome_error_iff _ _).mpr ⟨_, otherRun⟩, alike⟩

end Offside.Traced
