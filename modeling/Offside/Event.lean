import Offside.Diagnostic

/-!
# Events

The compiler reports what it does as a list of events, in order, whether or not
it succeeds in the end. An event is data; how much of it is shown, and how it is
worded, is settled when a log is printed.
-/

namespace Offside

/-- Something the compiler did. -/
inductive Event where
  | scanned (tokens lines : Nat)
  | laidOut (tokens blocks : Nat)
  /-- The value of a declaration did not read as a call. -/
  | notACall (failure : Failure)
  /-- Reading went back from one token position to an earlier one. -/
  | rewound (start target : Nat)
  | hoisted (name : String) (index : Nat)
  | parsed (statements functions : Nat)
  | enteredScope (depth : Nat)
  | leftScope (depth : Nat)
  | widened (value expected : String)
  | analyzed (statements functions : Nat)
  | emitted (bytes : Nat)
  | compiled (input output : Nat)
  deriving DecidableEq, Repr

/-- A computation that may fail and reports events either way. -/
abbrev Traced := EStateM Failure (Array Event)

namespace Traced

/-- Report one event. -/
def report (event : Event) : Traced Unit :=
  modify (·.push event)

/-- A step that reports nothing by itself. -/
def lift {α : Type} : Except Failure α → Traced α
  | .ok value => pure value
  | .error failure => throw failure

/-- The outcome alone. -/
def outcome {α : Type} (action : Traced α) : Except Failure α :=
  match action.run #[] with
  | .ok value _ => .ok value
  | .error failure _ => .error failure

/-- Everything that was reported, in order. -/
def events {α : Type} (action : Traced α) : List Event :=
  match action.run #[] with
  | .ok _ events => events.toList
  | .error _ events => events.toList

end Traced

end Offside
