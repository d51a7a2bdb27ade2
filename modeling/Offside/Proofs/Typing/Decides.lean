import Offside.Proofs.Typing.Rules

/-!
# Checks as decisions

A check succeeds or fails whatever was reported before it and whatever trail it
would report, so what it decides is a property of its result alone. `Check.Decides`
says which one, and every way of putting checks together puts the properties
together: the proofs about particular checks never look at trails or events.
-/

namespace Offside.Check

/-- The check succeeds exactly with the results that have the property, inside or
    outside of a function. -/
def Decides {α : Type} (inFunction : Bool) (check : Check α) (holds : α → Prop) : Prop :=
  ∀ trail events value,
    (∃ after, check ⟨trail, inFunction⟩ events = .ok value after) ↔ holds value

variable {α β : Type} {inFunction : Bool}

/-- What a check decides may be said in another way that comes to the same for every result. -/
theorem Decides.congr {check : Check α} {holds other : α → Prop}
    (decides : Decides inFunction check holds) (same : ∀ value, holds value ↔ other value) :
    Decides inFunction check other := by
  intro trail events value
  rw [decides trail events value, same]

/-- Returning a value decides that the result is this value, and it succeeds from everywhere. -/
theorem decides_pure (value : α) : Decides inFunction (pure value) (· = value) := by
  intro trail events result
  change (∃ after, EStateM.Result.ok value events = .ok result after) ↔ result = value
  constructor
  · rintro ⟨after, same⟩
    cases same
    rfl
  · rintro rfl
    exact ⟨events, rfl⟩

/-- A value that is given out of hand decides what holds of it alone. -/
theorem decides_pure_only {value : α} {holds : α → Prop} (isValue : holds value)
    (only : ∀ other, holds other → other = value) : Decides inFunction (pure value) holds := by
  refine (decides_pure value).congr fun other => ⟨?_, only other⟩
  rintro rfl
  exact isValue

/-- Giving up decides what never holds, whichever fault it reports. -/
theorem decides_fail (line : Nat) (fault : TypingFault) :
    Decides inFunction (fail line fault : Check α) fun _ => False := by
  intro trail events value
  constructor
  · rintro ⟨after, run⟩
    cases run
  · exact False.elim

/-- Nothing comes after giving up, so a sequence that starts with it decides what never holds
    either. -/
theorem decides_fail_then (line : Nat) (fault : TypingFault) (next : α → Check β) :
    Decides inFunction (fail line fault >>= next) fun _ => False := by
  intro trail events value
  constructor
  · rintro ⟨after, run⟩
    cases run
  · exact False.elim

/-- Reporting an event decides nothing, as it always succeeds and leaves no value to speak of. -/
theorem decides_report (event : Event) :
    Decides inFunction (report event) fun _ => True := by
  intro trail events value
  exact ⟨fun _ => trivial, fun _ => ⟨_, rfl⟩⟩

/-- A check that asks where it takes place, but not for the trail. -/
theorem decides_read {next : Site → Check α} {holds : α → Prop}
    (decides : ∀ trail, Decides inFunction (next ⟨trail, inFunction⟩) holds) :
    Decides inFunction (read >>= next) holds :=
  fun trail events value => decides trail trail events value

/-- One check after another decides that there is a value with the first property for which the
    second one holds of the result. -/
theorem decides_bind {check : Check α} {next : α → Check β} {holds : α → Prop}
    {later : α → β → Prop} (first : Decides inFunction check holds)
    (second : ∀ value, holds value → Decides inFunction (next value) (later value)) :
    Decides inFunction (check >>= next) fun result => ∃ value, holds value ∧ later value result := by
  intro trail events result
  change (∃ after, EStateM.bind (check ⟨trail, inFunction⟩)
    (fun value => next value ⟨trail, inFunction⟩) events = .ok result after) ↔ _
  unfold EStateM.bind
  constructor
  · rintro ⟨after, run⟩
    cases ran : check ⟨trail, inFunction⟩ events with
    | ok value between =>
        rw [ran] at run
        have holdsHere := (first trail events value).mp ⟨between, ran⟩
        exact ⟨value, holdsHere, (second value holdsHere trail between result).mp ⟨after, run⟩⟩
    | error failure between =>
        rw [ran] at run
        cases run
  · rintro ⟨value, holdsHere, holdsLater⟩
    obtain ⟨between, ran⟩ := (first trail events value).mpr holdsHere
    obtain ⟨after, run⟩ := (second value holdsHere trail between result).mpr holdsLater
    exact ⟨after, by rw [ran]; exact run⟩

/-- A check without a result of its own, and then another, decides both. The second one may rely on
    what the first one has decided. -/
theorem decides_then {check : Check Unit} {next : Unit → Check β} {holds : Prop}
    {later : β → Prop} (first : Decides inFunction check fun _ => holds)
    (second : holds → Decides inFunction (next ()) later) :
    Decides inFunction (check >>= next) fun result => holds ∧ later result := by
  refine (decides_bind first fun _ holdsHere => second holdsHere).congr fun result => ?_
  constructor
  · rintro ⟨_, both⟩
    exact both
  · intro both
    exact ⟨(), both⟩

/-- A check inside a step decides the same, since the name of the step is only seen in failures. -/
theorem decides_step (name : String) {check : Check α} {holds : α → Prop}
    (decides : Decides inFunction check holds) : Decides inFunction (step name check) holds :=
  fun trail events value => decides (trail ++ [name]) events value

/-- A check of a function body decides what it does inside a function, wherever the function is
    defined. -/
theorem decides_inFunction {check : Check α} {holds : α → Prop} (decides : Decides true check holds) :
    Decides inFunction
      (withReader (fun site : Site => { site with inFunction := true }) check) holds :=
  fun trail events value => decides trail events value

/-- Giving up on a condition decides that the condition does not hold. -/
theorem decides_unless {condition : Prop} [Decidable condition] (line : Nat)
    (fault : TypingFault) :
    Decides inFunction (if condition then fail line fault else pure ()) fun _ => ¬ condition := by
  split
  · rename_i isTrue
    exact (decides_fail line fault).congr fun _ => ⟨False.elim, fun isFalse => isFalse isTrue⟩
  · rename_i isFalse
    exact (decides_pure ()).congr fun _ => ⟨fun _ => isFalse, fun _ => rfl⟩

/-- Going on unless a condition holds decides that it does not, and with this whatever comes after
    it. -/
theorem decides_guard {condition : Prop} [Decidable condition] (line : Nat) (fault : TypingFault)
    {next : Unit → Check α} {holds : α → Prop}
    (onward : ¬ condition → Decides inFunction (next ()) holds) :
    Decides inFunction (if condition then fail line fault >>= next else next ())
      fun value => ¬ condition ∧ holds value := by
  split
  · rename_i isTrue
    exact (decides_fail_then line fault next).congr fun value => by simp [isTrue]
  · rename_i isFalse
    exact (onward isFalse).congr fun value => by simp [isFalse]

/-- The same check for every item of a list decides that the property holds of all items. The
    induction is on the list. -/
theorem decides_forM {items : List α} {check : α → Check Unit} {holds : α → Prop}
    (decides : ∀ item ∈ items, Decides inFunction (check item) fun _ => holds item) :
    Decides inFunction (items.forM check) fun _ => ∀ item ∈ items, holds item := by
  induction items with
  | nil => exact (decides_pure ()).congr fun _ => by simp
  | cons item items ih =>
      change Decides inFunction (check item >>= fun _ => items.forM check) _
      refine (decides_then (decides item (by simp)) fun _ =>
        ih fun other member => decides other (List.mem_cons_of_mem item member)).congr fun _ => ?_
      rw [List.forall_mem_cons]

/-- A block is accepted when what is in it is. The environment at its end is
    dropped. -/
theorem decides_inBlock {environment : Environment} {bindings : List Binding}
    {check : Environment → Check Environment} {holds : Environment → Prop}
    (decides : Decides inFunction (check (environment.enter bindings)) holds) :
    Decides inFunction (inBlock environment bindings check) fun _ => ∃ last, holds last := by
  have guarded : Decides inFunction (tryCatch (check (environment.enter bindings))
      fun failure => do
        report (.leftScope environment.depth)
        throw failure) holds := by
    intro trail events value
    rw [← decides trail events value]
    change (∃ after, EStateM.tryCatch (check (environment.enter bindings) ⟨trail, inFunction⟩) _
      events = .ok value after) ↔ _
    unfold EStateM.tryCatch
    cases check (environment.enter bindings) ⟨trail, inFunction⟩ events with
    | ok result after => rfl
    | error failure after =>
        constructor
        · rintro ⟨_, run⟩
          cases run
        · rintro ⟨_, run⟩
          cases run
  refine (decides_then (decides_report _) fun _ =>
    decides_bind guarded fun _ _ => decides_report _).congr fun _ => ?_
  simp

end Offside.Check
