import Offside.Proofs.Typing.Stack

/-!
# Functions that are visible in a body

The body of a function is checked on a stack of its own. Its only frame lists the functions that
are visible where the function is defined, hidden ones and all, from the outermost frame to the
innermost and each frame from its start. A lookup goes the other way: from the innermost frame
outwards, and through each frame from its end. So it meets the functions of the list in the same
order as in the frames that the list was made from, and what a name stands for is the same.

This stays so when both stacks grow in the same way. Inside a body every call is therefore
resolved as if the frames of the place of the definition were still there below the frames of
the body, through any number of definitions inside one another.
-/

namespace Offside

/-! ## Keeping that grow -/

/-- One way for a stack to grow. -/
inductive Push where
  /-- A frame without functions on top. -/
  | frame (bindings : List Binding)
  /-- A variable in the innermost frame. -/
  | binding (binding : Binding)
  /-- A function in the innermost frame. -/
  | function (signature : Signature)
  deriving DecidableEq, Repr

/-- The functions that a push makes visible. -/
def Push.functions : Push → List Signature
  | function signature => [signature]
  | _ => []

namespace Environment

/-- A stack that has grown once. -/
def push (environment : Environment) : Push → Environment
  | .frame bindings => environment.enter bindings
  | .binding binding => environment.declareVariable binding
  | .function signature => environment.declareFunction signature

/-- A stack that has grown several times, in order. -/
def grown (environment : Environment) (pushes : List Push) : Environment :=
  pushes.foldl push environment

variable (environment : Environment)

/-- What a name stands for depends on the list of visible functions only. -/
theorem signature?_eq_find? (name : String) :
    environment.signature? name =
      environment.visibleFunctions.reverse.find? fun signature => signature.name == name := by
  rw [signature?_eq, reverse_visibleFunctions]

/-- In the environment that a walk starts with, just the functions that are given are visible. -/
@[simp]
theorem visibleFunctions_seeded (bindings : List Binding) (signatures : List Signature) :
    (seeded bindings signatures).visibleFunctions = signatures := by
  simp [visibleFunctions, frames, seeded]

/-- A new frame makes no function visible and hides none, as it starts without any. -/
@[simp]
theorem visibleFunctions_enter (bindings : List Binding) :
    (environment.enter bindings).visibleFunctions = environment.visibleFunctions := by
  simp [visibleFunctions, frames, enter]

/-- A variable has no part in which functions are visible, as frames list the two apart. -/
@[simp]
theorem visibleFunctions_declareVariable (binding : Binding) :
    (environment.declareVariable binding).visibleFunctions = environment.visibleFunctions := by
  simp [visibleFunctions, frames, declareVariable]

/-- A function that is declared comes last in the list of those that are visible. -/
@[simp]
theorem visibleFunctions_declareFunction (signature : Signature) :
    (environment.declareFunction signature).visibleFunctions =
      environment.visibleFunctions ++ [signature] := by
  simp [visibleFunctions, frames, declareFunction]

/-- Past a statement the functions that it defines are visible as well, at the end of the list. -/
@[simp]
theorem visibleFunctions_past (functions : List Definition) (statement : Statement) :
    (environment.past functions statement).visibleFunctions =
      environment.visibleFunctions ++ definedIn functions [statement] := by
  simp [visibleFunctions, frames, past]

/-- A push makes its functions visible, behind all that were so before. -/
theorem visibleFunctions_push (push : Push) :
    (environment.push push).visibleFunctions =
      environment.visibleFunctions ++ push.functions := by
  cases push <;> simp [Environment.push, Push.functions]

/-- Several pushes make theirs visible in order, by induction on the pushes. -/
theorem visibleFunctions_grown (pushes : List Push) :
    (environment.grown pushes).visibleFunctions =
      environment.visibleFunctions ++ pushes.flatMap Push.functions := by
  induction pushes generalizing environment with
  | nil => simp [grown]
  | cons push pushes ih =>
      rw [grown, List.foldl_cons, ← grown, ih, visibleFunctions_push, List.flatMap_cons,
        List.append_assoc]

variable {environment}

/-- Keeping with the same visible functions give each name the same meaning. -/
theorem signature?_congr {other : Environment}
    (same : environment.visibleFunctions = other.visibleFunctions) (name : String) :
    environment.signature? name = other.signature? name := by
  rw [signature?_eq_find?, signature?_eq_find?, same]

end Environment

/-! ## Keeping without a frame -/

namespace Walker

/-- A walk that has made its stack grow once. -/
def grow (walker : Walker) : Push → Walker
  | .frame bindings =>
      bindings.foldl declareVariable walker.push
  | .binding binding => walker.declareVariable binding
  | .function signature => walker.declareFunction signature

/-- The functions that are visible where a walk is. -/
def visible (walker : Walker) : List Signature :=
  walker.scene.environment.visibleFunctions

variable (walker : Walker)

/-- A walk that puts a frame on its stack sees the functions that it has seen before. -/
@[simp]
theorem visible_push : walker.push.visible = walker.visible := by
  obtain ⟨⟨_ | ⟨innermost, enclosing⟩, trail, inFunction⟩, events, record⟩ := walker <;>
    simp [visible, Scene.environment, push, report, Environment.visibleFunctions,
      Environment.frames, Environment.seeded]

/-- A walk that declares a variable in place sees the functions that it has seen before. -/
@[simp]
theorem visible_declareVariable (binding : Binding) :
    (walker.declareVariable binding).visible = walker.visible := by
  obtain ⟨⟨_ | ⟨innermost, enclosing⟩, trail, inFunction⟩, events, record⟩ := walker <;>
    simp [visible, Scene.environment, declareVariable, declare, note,
      Environment.visibleFunctions, Environment.frames, Environment.seeded]

/-- A walk that declares a function in place sees it behind all others, even if there was no frame
    to declare it in. -/
@[simp]
theorem visible_declareFunction (signature : Signature) :
    (walker.declareFunction signature).visible = walker.visible ++ [signature] := by
  obtain ⟨⟨_ | ⟨innermost, enclosing⟩, trail, inFunction⟩, events, record⟩ := walker <;>
    simp [visible, Scene.environment, declareFunction, declare, note,
      Environment.visibleFunctions, Environment.frames, Environment.seeded]

/-- In the body of a function, a walk sees the functions that were visible where it was defined,
    although the frames were put away. -/
@[simp]
theorem visible_isolate : walker.isolate.visible = walker.visible := by
  simp [visible, isolate, Scene.environment, Environment.visibleFunctions, Environment.frames]

/-- A push on the stack of a walk makes the same functions visible as on one that is not changed in
    place. -/
theorem visible_grow (push : Push) :
    (walker.grow push).visible = walker.visible ++ push.functions := by
  cases push with
  | frame bindings =>
      have declared (walker : Walker) :
          (bindings.foldl declareVariable walker).visible = walker.visible := by
        induction bindings generalizing walker with
        | nil => rfl
        | cons binding bindings ih => simp [ih]
      simp [grow, declared, Push.functions]
  | binding binding => simp [grow, Push.functions]
  | function signature => simp [grow, Push.functions]

/-- Several pushes make theirs visible in order, on the stack of a walk as well. -/
theorem visible_foldl_grow (pushes : List Push) :
    (pushes.foldl grow walker).visible =
      walker.visible ++ pushes.flatMap Push.functions := by
  induction pushes generalizing walker with
  | nil => simp
  | cons push pushes ih => simp [ih, visible_grow]

end Walker

/-! ## Bodies on the stack of their definition -/

namespace Stage

/-- The body of a function that is defined in `environment`, with the function itself among
    those that it sees. -/
def ofBody (bound : Nat) (environment : Environment) (definition : Definition) : Stage :=
  ⟨bound,
    (Environment.seeded []
      (environment.declareFunction definition.signature).visibleFunctions).enter
        definition.bindings,
    definition.body.statements⟩

/-- One step of the walk, and what it makes of a stack of which nothing is ever put away: the
    body of a function goes on top of the frames of the place where the function is defined. -/
inductive Keeping (functions : List Definition) : Stage × Environment → Stage × Environment → Prop
  where
  | next {bound : Nat} {environment next whole : Environment} {first : Statement}
      {later : List Statement}
      (checked : Check.Gives (Check.statement (Check.definition functions bound) environment first)
        next) :
      Keeping functions (⟨bound, environment, first :: later⟩, whole)
        (⟨bound, next, later⟩, whole.past functions first)
  | block {bound : Nat} {environment whole : Environment} {first : Statement}
      {later : List Statement} {counter : Option Token} {body : Block Statement}
      (isBlock : (counter, body) ∈ first.blocks) :
      Keeping functions (⟨bound, environment, first :: later⟩, whole)
        (⟨bound, environment.enter (counterBindings counter), body.statements⟩,
          whole.enter (counterBindings counter))
  | body {bound index line : Nat} {environment whole : Environment} {later : List Statement}
      {definition : Definition} (found : functions[index]? = some definition) :
      Keeping functions (⟨bound + 1, environment, .hoisted index line :: later⟩, whole)
        (ofBody bound environment definition,
          (whole.declareFunction definition.signature).enter definition.bindings)

variable {functions : List Definition} {before after : Stage × Environment}

/-- Each step of the walk makes something of the stack that is never put away. -/
theorem Leads.keeping {stage other : Stage} (leads : Leads functions stage other)
    (whole : Environment) : ∃ after, Keeping functions (stage, whole) (other, after) := by
  cases leads with
  | next checked => exact ⟨_, .next checked⟩
  | block isBlock => exact ⟨_, .block isBlock⟩
  | body found => exact ⟨_, .body found⟩

/-- Both stacks see the same functions after a step if they did before it. -/
theorem Keeping.visible (keeping : Keeping functions before after)
    (same : before.1.environment.visibleFunctions = before.2.visibleFunctions) :
    after.1.environment.visibleFunctions = after.2.visibleFunctions := by
  cases keeping with
  | next checked =>
      have declares := Check.declares_definition functions
      rw [(Check.gives_statement (declares _) checked).1]
      simpa using same
  | block isBlock => simpa using same
  | body found => simpa [ofBody] using same

/-- A step adds frames on top or changes the innermost one, and leaves those below. -/
theorem Keeping.below (keeping : Keeping functions before after) {frames : List Frame}
    (below : ∃ inner, before.2.enclosing = inner ++ frames) :
    ∃ inner, after.2.enclosing = inner ++ frames := by
  obtain ⟨inner, below⟩ := below
  cases keeping with
  | next checked => exact ⟨inner, below⟩
  | block isBlock => exact ⟨_ :: inner, congrArg (List.cons _) below⟩
  | body found => exact ⟨_ :: inner, congrArg (List.cons _) below⟩

/-- Wherever the walk comes to inside a body, the stack of which nothing is put away has the
    frames of the definition's place at its bottom and the same visible functions. -/
theorem exists_stacks {bound : Nat} {environment : Environment} {definition : Definition}
    {stage : Stage}
    (inside : Relation.ReflTransGen (Leads functions) (ofBody bound environment definition) stage) :
    let declared := environment.declareFunction definition.signature
    ∃ whole,
      Relation.ReflTransGen (Keeping functions)
        (ofBody bound environment definition, declared.enter definition.bindings) (stage, whole) ∧
      (∃ inner, whole.enclosing = inner ++ declared.frames) ∧
      stage.environment.visibleFunctions = whole.visibleFunctions := by
  intro declared
  induction inside with
  | refl => exact ⟨_, .refl, ⟨[], rfl⟩, by simp [ofBody, declared]⟩
  | tail _ leads ih =>
      obtain ⟨whole, walked, below, same⟩ := ih
      obtain ⟨after, keeping⟩ := leads.keeping whole
      exact ⟨after, walked.tail keeping, keeping.below below, keeping.visible same⟩

end Stage

/-- A lookup in a stack finds what the upper frames have, or else what the lower ones have. -/
theorem Environment.signature?_append {environment lower : Environment} {upper : List Frame}
    (frames : environment.frames = upper ++ lower.frames) (name : String) :
    environment.signature? name =
      (upper.findSome? fun frame =>
        frame.functions.reverse.find? fun signature => signature.name == name).or
          (lower.signature? name) := by
  rw [signature?, frames, List.findSome?_append]
  rfl

/-- A stack and the one frame that its visible functions make give each function name the same
    meaning, and go on doing so when both grow in the same way. This holds also of a stack that
    has no frame yet. Inside the body of a function every call is therefore resolved as on a
    stack that still has, below the frames of the body, the frames of the place where the
    function is defined: a name of no function in the frames of the body stands for the function
    that was visible there. -/
theorem flattened_lookup :
    (∀ (environment : Environment) (pushes : List Push) (name : String),
      ((Environment.seeded [] environment.visibleFunctions).grown pushes).signature? name =
        (environment.grown pushes).signature? name) ∧
    (∀ (walker : Walker) (pushes : List Push) (name : String),
      (pushes.foldl Walker.grow walker.isolate).scene.environment.signature? name =
        (pushes.foldl Walker.grow walker).scene.environment.signature? name) ∧
    ∀ (functions : List Definition) (bound : Nat) (environment : Environment)
      (definition : Definition) (stage : Stage),
      let declared := environment.declareFunction definition.signature
      Relation.ReflTransGen (Stage.Leads functions) (.ofBody bound environment definition) stage →
        ∃ whole upper,
          Relation.ReflTransGen (Stage.Keeping functions)
            (.ofBody bound environment definition, declared.enter definition.bindings)
            (stage, whole) ∧
          whole.frames = upper ++ declared.frames ∧
          (∀ callee, Check.signatureOf stage.environment callee =
            Check.signatureOf whole callee) ∧
          ∀ name, stage.environment.signature? name =
            (upper.findSome? fun frame =>
              frame.functions.reverse.find? fun signature => signature.name == name).or
                (declared.signature? name) := by
  refine ⟨fun environment pushes name => ?_, fun walker pushes name => ?_, ?_⟩
  · apply Environment.signature?_congr
    simp [Environment.visibleFunctions_grown]
  · apply Environment.signature?_congr
    have flattened := walker.isolate.visible_foldl_grow pushes
    rw [Walker.visible_isolate, ← Walker.visible_foldl_grow] at flattened
    exact flattened
  · intro functions bound environment definition stage declared inside
    obtain ⟨whole, walked, ⟨inner, below⟩, same⟩ := Stage.exists_stacks inside
    have frames : whole.frames = (whole.innermost :: inner) ++ declared.frames :=
      congrArg (List.cons whole.innermost) below
    have lookups := Environment.signature?_congr same
    refine ⟨whole, _, walked, frames, fun callee => ?_, fun name => ?_⟩
    · unfold Check.signatureOf
      rw [lookups]
    · rw [lookups, Environment.signature?_append frames]

/-- A function inside another one. A name that its body calls has three functions where the outer
    one is defined, two in the innermost frame and one further out. -/
theorem flattened_lookup_shadowed :
    let word (kind : Kind) (lexeme : String) (line : Nat) : Token := ⟨kind, lexeme, line⟩
    let define (name : String) (line : Nat) (first : Statement) : Definition :=
      ⟨word .defWord "def" line, word .identifier name line, [], none, ⟨line, [first]⟩⟩
    let inner := define "h" 5 (.call (word .identifier "f" 6) [])
    let outer := define "g" 4 (.hoisted 0 5)
    let environment : Environment :=
      ⟨⟨[], [⟨"f", [], "any"⟩, ⟨"f", ["int"], "any"⟩]⟩, [⟨[], [⟨"f", ["string"], "any"⟩]⟩]⟩
    let declared := environment.declareFunction outer.signature
    let entered := Stage.ofBody 1 environment outer
    let stage := Stage.ofBody 0 entered.environment inner
    Relation.ReflTransGen (Stage.Leads [inner]) entered stage ∧
      (∃ whole upper,
        Relation.ReflTransGen (Stage.Keeping [inner])
          (entered, declared.enter outer.bindings) (stage, whole) ∧
        whole.frames = upper ++ declared.frames ∧
        (∀ callee, Check.signatureOf stage.environment callee =
          Check.signatureOf whole callee) ∧
        ∀ name, stage.environment.signature? name =
          (upper.findSome? fun frame =>
            frame.functions.reverse.find? fun signature => signature.name == name).or
              (declared.signature? name)) ∧
      stage.environment.signature? "f" = some ⟨"f", ["int"], "any"⟩ := by
  intro word define inner outer environment declared entered stage
  have inside : Relation.ReflTransGen (Stage.Leads [inner]) entered stage :=
    .single (.body rfl)
  exact ⟨inside, flattened_lookup.2.2 [inner] 1 environment outer stage inside, by decide⟩

end Offside
