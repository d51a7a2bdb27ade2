import Offside.Syntax.Grammar

/-!
# Laws of readers

What the primitive readers do to a state, in two forms. The first form inverts a
successful run: from the result it recovers the state that the run started in.
The second form evaluates a reader on a state whose first tokens are known.
Productions are opened with these laws and never unfolded down to the state
monad.
-/

namespace Offside.Reader

variable {α β : Type} {context : Context} {state after : State}

/-- A successful sequence of two readers is a success of each of them, the second
    starting where the first one stopped. -/
theorem bind_ok_iff {first : Reader α} {second : α → Reader β} {value : β} :
    (first >>= second) context state = .ok value after ↔
      ∃ intermediate middle, first context state = .ok intermediate middle ∧
        second intermediate context middle = .ok value after := by
  change EStateM.bind (first context) (fun value => second value context) state = _ ↔ _
  unfold EStateM.bind
  cases first context state with
  | ok intermediate middle =>
      constructor
      · intro run
        exact ⟨intermediate, middle, rfl, run⟩
      · rintro ⟨_, _, same, run⟩
        cases same
        exact run
  | error failure middle => simp

/-- A reader after one that succeeds runs from where that one stopped. -/
theorem bind_of_ok {first : Reader α} {second : α → Reader β} {intermediate : α}
    {middle : State} (run : first context state = .ok intermediate middle) :
    (first >>= second) context state = second intermediate context middle := by
  change EStateM.bind (first context) (fun value => second value context) state = _
  simp only [EStateM.bind, run]

/-- No reader runs after one that fails, and the failure is that of the sequence. -/
theorem bind_of_error {first : Reader α} {second : α → Reader β} {failure : Failure}
    {middle : State} (run : first context state = .error failure middle) :
    (first >>= second) context state = .error failure middle := by
  change EStateM.bind (first context) (fun value => second value context) state = _
  simp only [EStateM.bind, run]

/-- A reader that only gives a value succeeds with it and reads nothing. -/
@[simp] theorem pure_apply (value : α) :
    (pure value : Reader α) context state = .ok value state := rfl

/-- Asking for the state gives it and leaves it as it is. -/
@[simp] theorem get_apply : (get : Reader State) context state = .ok state state := rfl

/-- The unread tokens are those of the state, and looking at them reads none. -/
@[simp] theorem unread_apply : unread context state = .ok state.rest state := rfl

/-- The current token is the first of the unread ones, if there is one. -/
@[simp] theorem current_apply : current context state = .ok state.rest.head? state := rfl

/-- The kind of the current token is found without reading it. At the end of the input there is
    none. -/
@[simp] theorem currentKind_apply :
    currentKind context state = .ok (state.rest.head?.map Token.kind) state := rfl

/-- The kind of the token behind the current one is that of the second unread token. -/
@[simp] theorem nextKind_apply :
    nextKind context state = .ok (state.rest[1]?.map Token.kind) state := rfl

/-- The current line is that of the first unread token, and at the end of the input that of the last
    token. -/
@[simp] theorem currentLine_apply :
    currentLine context state =
      .ok ((state.rest.head?.map Token.line).getD context.lastLine) state := rfl

/-- Moving past the current token drops it from the unread ones, where nothing is dropped if there
    is none. -/
@[simp] theorem advance_apply :
    advance context state = .ok () { state with rest := state.rest.tail } := rfl

/-- Skipping line breaks drops them from the front of the unread tokens. -/
@[simp] theorem skipNewlines_apply :
    skipNewlines context state =
      .ok () { state with
        rest := state.rest.dropWhile (fun token => token.kind == .newline) } := rfl

/-- Reporting an event adds it behind those that were reported, and no token is read. -/
@[simp] theorem report_apply (event : Event) :
    report event context state = .ok () { state with events := state.events.push event } :=
  rfl

/-- Changing the state succeeds and leaves the changed state. -/
@[simp] theorem modify_apply (change : State → State) :
    (modify change : Reader PUnit) context state = .ok ⟨⟩ (change state) := rfl

/-- Being on the trail of a production changes nothing but messages, for only the context grows. -/
@[simp] theorem production_apply (name : String) (reader : Reader α) :
    production name reader context state =
      reader { context with trail := context.trail ++ [name] } state := rfl

/-- A failure that is raised is the result, and the state stays as it was. -/
@[simp] theorem throw_apply (failure : Failure) :
    (throw failure : Reader α) context state = .error failure state := rfl

/-- Giving up never succeeds and leaves the state alone. The report has the current line. -/
@[simp] theorem fail_apply (fault : SyntaxFault) :
    (fail fault : Reader α) context state =
      .error (.parse ⟨context.trail,
        (state.rest.head?.map Token.line).getD context.lastLine, fault.message⟩) state := rfl

/-- Giving up on a given line reports this line, with the trail as it is. -/
@[simp] theorem failOn_apply (line : Nat) (fault : SyntaxFault) :
    (failOn line fault : Reader α) context state =
      .error (.parse ⟨context.trail, line, fault.message⟩) state := rfl

/-- Giving up because of the current token reports the kinds that were expected and what was
    found. -/
@[simp] theorem unexpected_apply (kinds : List Kind) :
    (unexpected kinds : Reader α) context state =
      .error (.parse ⟨context.trail, (state.rest.head?.map Token.line).getD context.lastLine,
        (SyntaxFault.expected kinds state.rest.head?).message⟩) state := rfl

/-- Going back reports the move and restores nothing but the unread tokens. -/
theorem rewind_apply (checkpoint : List Token) (context : Context) (state : State) :
    ∃ event, rewind checkpoint context state =
      .ok () { state with rest := checkpoint, events := state.events.push event } :=
  ⟨_, rfl⟩

/-- An optional token is taken exactly when it is there and admitted. -/
theorem accept?_apply (admitted : Kind → Bool) :
    accept? admitted context state =
      match state.rest with
      | [] => .ok none state
      | token :: rest =>
          if admitted token.kind then .ok (some token) { state with rest := rest }
          else .ok none state := by
  obtain ⟨rest, functions, events⟩ := state
  cases rest with
  | nil => rfl
  | cons token rest =>
      by_cases admits : admitted token.kind
      · simp only [accept?]
        rw [bind_of_ok current_apply]
        simp only [List.head?_cons, admits, if_true]
        rfl
      · simp only [accept?]
        rw [bind_of_ok current_apply]
        simp only [List.head?_cons, admits]
        rfl

/-- A token that is admitted is taken, and the tokens behind it are left. -/
theorem accept?_cons {admitted : Kind → Bool} {token : Token} {rest : List Token}
    {functions : List Definition} {events : Array Event} (admits : admitted token.kind = true) :
    accept? admitted context ⟨token :: rest, functions, events⟩ =
      .ok (some token) ⟨rest, functions, events⟩ := by
  simp [accept?_apply, admits]

/-- Where no admitted token comes next, nothing is taken and the state stays as it is. -/
theorem accept?_none {admitted : Kind → Bool}
    (refused : ∀ token ∈ state.rest.head?, admitted token.kind = false) :
    accept? admitted context state = .ok none state := by
  obtain ⟨rest, functions, events⟩ := state
  cases rest with
  | nil => rfl
  | cons token rest => simp [accept?_apply, refused token (by simp)]

/-- A taken token stood first among the unread ones and was admitted. If none was taken, the first
    one was not, and the state is the same. -/
theorem accept?_ok_iff {admitted : Kind → Bool} {result : Option Token} :
    accept? admitted context state = .ok result after ↔
      (∃ token, result = some token ∧ admitted token.kind = true ∧
        state = { after with rest := token :: after.rest }) ∨
      (result = none ∧ state = after ∧
        ∀ token ∈ state.rest.head?, admitted token.kind = false) := by
  obtain ⟨rest, functions, events⟩ := state
  rw [accept?_apply]
  cases rest with
  | nil =>
      constructor
      · intro run
        cases run
        exact .inr ⟨rfl, rfl, by simp⟩
      · rintro (⟨token, _, _, same⟩ | ⟨rfl, rfl, _⟩)
        · cases same
        · rfl
  | cons token rest =>
      by_cases admits : admitted token.kind = true
      · simp only [admits, if_true]
        constructor
        · intro run
          cases run
          exact .inl ⟨token, rfl, admits, rfl⟩
        · rintro (⟨taken, rfl, _, same⟩ | ⟨_, _, refused⟩)
          · cases same
            rfl
          · exact absurd (refused token rfl) (by simp [admits])
      · simp only [admits]
        constructor
        · intro run
          cases run
          exact .inr ⟨rfl, rfl, by simp [admits]⟩
        · rintro (⟨taken, _, isAdmitted, same⟩ | ⟨rfl, rfl, _⟩)
          · cases same
            exact absurd isAdmitted admits
          · rfl

/-- A required token stood first among the unread ones and has an admitted
    kind. -/
theorem expectAny_ok_iff {kinds : List Kind} {token : Token} :
    expectAny kinds context state = .ok token after ↔
      token.kind ∈ kinds ∧ state = { after with rest := token :: after.rest } := by
  simp only [expectAny, bind_ok_iff, accept?_ok_iff, List.contains_eq_mem, decide_eq_true_eq]
  constructor
  · rintro ⟨_, middle, ⟨taken, rfl, admitted, rfl⟩ | ⟨rfl, rfl, _⟩, run⟩
    · cases run
      exact ⟨admitted, rfl⟩
    · cases run
  · rintro ⟨admitted, rfl⟩
    exact ⟨some token, after, .inl ⟨token, rfl, admitted, rfl⟩, rfl⟩

/-- A demanded token that was read has its kind and stood first among the unread ones. -/
theorem expect_ok_iff {kind : Kind} {token : Token} :
    expect kind context state = .ok token after ↔
      token.kind = kind ∧ state = { after with rest := token :: after.rest } := by
  simp [expect, expectAny_ok_iff]

/-- A token of an admitted kind is read, and the tokens behind it are left. -/
theorem expectAny_cons {kinds : List Kind} {token : Token} {rest : List Token}
    {functions : List Definition} {events : Array Event} (admitted : token.kind ∈ kinds) :
    expectAny kinds context ⟨token :: rest, functions, events⟩ =
      .ok token ⟨rest, functions, events⟩ :=
  expectAny_ok_iff.mpr ⟨admitted, rfl⟩

/-- Where no token of an admitted kind comes next, reading one fails and leaves the
    state alone. -/
theorem expectAny_fails (kinds : List Kind) (context : Context) (state : State)
    (refused : ∀ token ∈ state.rest.head?, token.kind ∉ kinds) :
    ∃ failure, expectAny kinds context state = .error failure state := by
  refine ⟨_, (bind_of_ok (accept?_none ?_)).trans rfl⟩
  intro token member
  simpa using refused token member

/-- A token of the one kind that is demanded is read, and the tokens behind it are left. -/
theorem expect_cons {kind : Kind} {token : Token} {rest : List Token}
    {functions : List Definition} {events : Array Event} (same : token.kind = kind) :
    expect kind context ⟨token :: rest, functions, events⟩ =
      .ok token ⟨rest, functions, events⟩ :=
  expect_ok_iff.mpr ⟨same, rfl⟩

/-- An attempt that fails is followed by its handler, in the state that the
    attempt was left in. -/
theorem tryCatch_apply (attempt : Reader α) (handler : Failure → Reader α) :
    tryCatch attempt handler context state =
      match attempt context state with
      | .ok value after => .ok value after
      | .error failure after => handler failure context after := by
  change EStateM.tryCatch (attempt context) (fun failure => handler failure context) state = _
  unfold EStateM.tryCatch
  cases run : attempt context state <;> rfl

/-- The reader defines no function, whether or not it succeeds. -/
def DefinesNothing (reader : Reader α) : Prop :=
  ∀ context state, match reader context state with
    | .ok _ after => after.functions = state.functions
    | .error _ after => after.functions = state.functions

/-- A sequence of readers that define nothing defines nothing, whichever of them fails. -/
theorem definesNothing_bind {first : Reader α} {second : α → Reader β}
    (firstNothing : DefinesNothing first) (secondNothing : ∀ value, DefinesNothing (second value)) :
    DefinesNothing (first >>= second) := by
  intro context state
  change match EStateM.bind (first context) (fun value => second value context) state with
    | .ok _ after => after.functions = state.functions
    | .error _ after => after.functions = state.functions
  have before := firstNothing context state
  unfold EStateM.bind
  cases run : first context state with
  | error failure middle =>
      rw [run] at before
      exact before
  | ok value middle =>
      rw [run] at before
      have later := secondNothing value context middle
      rw [before] at later
      exact later

/-- A production around a reader that defines nothing defines nothing either, since it only adds to
    the trail. -/
theorem definesNothing_production {name : String} {reader : Reader α}
    (nothing : DefinesNothing reader) : DefinesNothing (production name reader) :=
  fun _ state => nothing _ state

/-- Returning a value defines nothing, as it leaves the whole state alone. -/
theorem definesNothing_pure (value : α) : DefinesNothing (pure value : Reader α) :=
  fun _ _ => rfl

/-- Looking at the unread tokens defines nothing and reads nothing. -/
theorem definesNothing_unread : DefinesNothing unread := fun _ _ => rfl

/-- Looking at the kind of the current token defines nothing and reads nothing. -/
theorem definesNothing_currentKind : DefinesNothing currentKind := fun _ _ => rfl

/-- Giving up because of the current token defines nothing, for a failure leaves the state alone. -/
theorem definesNothing_unexpected (kinds : List Kind) :
    DefinesNothing (unexpected kinds : Reader α) := fun _ _ => rfl

/-- Taking an optional token defines nothing, whether it is there or not. -/
theorem definesNothing_accept? (admitted : Kind → Bool) : DefinesNothing (accept? admitted) := by
  intro context state
  rw [accept?_apply]
  cases state.rest with
  | nil => rfl
  | cons token rest => by_cases admits : admitted token.kind = true <;> simp [admits]

/-- Demanding a token of some kinds defines nothing, whether it is there or not. -/
theorem definesNothing_expectAny (kinds : List Kind) : DefinesNothing (expectAny kinds) := by
  apply definesNothing_bind (definesNothing_accept? _)
  intro taken
  cases taken with
  | none => exact definesNothing_unexpected kinds
  | some token => exact definesNothing_pure token

/-- A callee and an opening parenthesis stand first. -/
def startsCall : List Token → Bool
  | callee :: next :: _ => callees.contains callee.kind && next.kind == .leftParen
  | _ => false

/-- A call comes next where a callee and an opening parenthesis stand first. Finding this out reads
    nothing. -/
@[simp] theorem atCall_apply : atCall context state = .ok (startsCall state.rest) state := by
  obtain ⟨rest, functions, events⟩ := state
  rcases rest with _ | ⟨callee, _ | ⟨next, rest⟩⟩ <;> rfl

/-- An argument in which calls nest at most `bound` deep. -/
def argumentWithin (bound : Nat) : Reader Value := do
  if ← atCall then
    let (nested, arguments) ← callWithin bound
    return Value.call nested arguments
  else return Value.terminal (← expectAny operands)

/-- A call is a callee with arguments between parentheses, and the calls among these nest less deep
    by one. -/
theorem callWithin_succ (bound : Nat) :
    callWithin (bound + 1) = production "call" do
      let callee ← expectAny callees
      let arguments ← parenthesized (argumentWithin bound)
      return (callee, arguments) := rfl

/-- Where no token is left, a reader that needs one first gives up. -/
theorem expectAny_at_end {kinds : List Kind} {next : Token → Reader α} {context : Context}
    {state : State} (empty : state.rest = []) :
    (expectAny kinds >>= next) context state = (unexpected kinds : Reader α) context state := by
  obtain ⟨rest, functions, events⟩ := state
  subst empty
  exact bind_of_error rfl

/-- Where no token is left, a call gives up, however deep calls may nest. -/
theorem callWithin_at_end (bound : Nat) (context : Context) (state : State)
    (empty : state.rest = []) :
    callWithin bound context state = production "call" (unexpected callees) context state := by
  cases bound with
  | zero => rfl
  | succ bound =>
      rw [callWithin_succ, production_apply, production_apply]
      exact expectAny_at_end empty

/-- The end of a line is a line break, the end of a block or of the input. It is
    seen and not read. -/
theorem lineEnd_ok_iff :
    lineEnd context state = .ok () after ↔
      after = state ∧ ∀ token ∈ state.rest.head?, token.kind = .newline ∨ token.kind = .closeBlock := by
  obtain ⟨rest, functions, events⟩ := state
  simp only [lineEnd, bind_of_ok current_apply]
  cases rest with
  | nil => simp [eq_comm]
  | cons token rest =>
      by_cases ending : token.kind = .newline ∨ token.kind = .closeBlock
      · simp [ending, @eq_comm _ after]
      · simp [ending]

end Offside.Reader
