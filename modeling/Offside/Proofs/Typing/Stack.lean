import Offside.Proofs.Typing.Frames

/-!
# The walk on one stack

Static analysis gives each statement an environment and takes another one from it. Blocks are
left by going back to an environment that is still there, so no frame can be left behind. Here
the same walk changes one stack of frames in place: a block pushes a frame and pops it, whether
or not it is accepted, the body of a function swaps the stack for another and puts it back, and
a step of the trail is taken off again. Nothing but the order of these changes keeps the stack
in shape, and a declaration on an empty stack makes a frame of its own.

The walk writes down what it passes: where it comes to a statement, what a statement and a block
have made of the place, and each time that it had to make a frame. It ends like static analysis
and reports the same events, and its record shows that the changes are balanced.
-/

namespace Offside

/-! ## Walking -/

/-- The place of a walk. Frames are listed from the innermost on, and there may be none. -/
structure Scene where
  frames : List Frame
  trail : List String
  inFunction : Bool
  deriving DecidableEq, Repr

/-- The environment that lookups see. Without frames they find nothing, as in an empty one. -/
def Scene.environment (scene : Scene) : Environment :=
  match scene.frames with
  | [] => .seeded [] []
  | innermost :: enclosing => ⟨innermost, enclosing⟩

/-- What a walk writes down. -/
inductive Entry where
  /-- It came to a statement or to a block. -/
  | came (scene : Scene)
  /-- It made a frame, because there was none to declare a name in. -/
  | refilled
  /-- A statement was accepted. -/
  | passed (statement : Statement) (before after : Scene)
  /-- A block was accepted, and the walk has left it. -/
  | left (before after : Scene)
  deriving Repr

/-- A walk under way. -/
structure Walker where
  scene : Scene
  events : Array Event
  record : List Entry

namespace Walker

variable (walker : Walker)

def note (entry : Entry) : Walker :=
  { walker with record := walker.record ++ [entry] }

def report (event : Event) : Walker :=
  { walker with events := walker.events.push event }

/-- One more step on the trail. -/
def within (name : String) : Walker :=
  { walker with scene.trail := walker.scene.trail ++ [name] }

/-- One step less on the trail. -/
def without : Walker :=
  { walker with scene.trail := walker.scene.trail.dropLast }

/-- Push an empty frame. -/
def push : Walker :=
  let frames := ⟨[], []⟩ :: walker.scene.frames
  { walker with scene.frames := frames }.report (.enteredScope frames.length)

/-- Pop the innermost frame. -/
def pop : Walker :=
  let frames := walker.scene.frames.tail
  { walker with scene.frames := frames }.report (.leftScope frames.length)

/-- Extend the innermost frame. If there is none, an empty one is made first. -/
def declare (extend : Frame → Frame) : Walker :=
  match walker.scene.frames with
  | [] => { walker.note .refilled with scene.frames := [extend ⟨[], []⟩] }
  | innermost :: enclosing => { walker with scene.frames := extend innermost :: enclosing }

/-- Declare a variable in the innermost frame. -/
def declareVariable (binding : Binding) : Walker :=
  walker.declare fun frame => { frame with bindings := frame.bindings ++ [binding] }

/-- Declare a function in the innermost frame. -/
def declareFunction (function : Signature) : Walker :=
  walker.declare fun frame => { frame with functions := frame.functions ++ [function] }

/-- Go into the body of a function, which sees the functions that are visible here. -/
def isolate : Walker :=
  { walker with
    scene.frames := [⟨[], walker.scene.environment.visibleFunctions⟩]
    scene.inFunction := true }

/-- Come back from the body of a function. -/
def restore (outer : Scene) : Walker :=
  { walker with
    scene.frames := outer.frames
    scene.inFunction := outer.inFunction }

end Walker

/-- Walks through a part of a program. -/
abbrev Walk := EStateM Failure Walker

namespace Walk

variable {α : Type}

/-- A check that only looks at the place. -/
def look (check : Environment → Check α) : Walk α := fun walker =>
  match check walker.scene.environment ⟨walker.scene.trail, walker.scene.inFunction⟩
    walker.events with
  | .ok value after => .ok value { walker with events := after }
  | .error failure after => .error failure { walker with events := after }

/-- Give up with a fault on a line. -/
def fail (line : Nat) (fault : TypingFault) : Walk α :=
  look fun _ => Check.fail line fault

/-- Walk with one more step on the trail, which is taken off at the end. -/
def step (name : String) (walk : Walk α) : Walk α := do
  modify fun walker => walker.within name
  try walk finally modify Walker.without

/-- The result type of a call with `count` arguments, which `arguments` walks through. -/
def callResult (callee : Token) (count : Nat) (arguments : List TypeName → Walk Unit) :
    Walk StaticType := do
  let signature ← look (Check.signatureOf · callee)
  if count ≠ signature.parameters.length then
    fail callee.line (.argumentCount callee.lexeme signature.parameters.length count)
  arguments signature.parameters
  return .named signature.returns

mutual

/-- The static type of a value. -/
def valueType : Value → Walk StaticType
  | .terminal token => look (Check.terminalType · token)
  | .call callee arguments =>
      step "call" (callResult callee arguments.length (argumentsFit callee.lexeme 1 arguments))

/-- Walk through arguments and the types of the parameters. -/
def argumentsFit (callee : String) (position : Nat) : List Value → List TypeName → Walk Unit
  | argument :: arguments, expected :: parameters => do
      let actual ← valueType argument
      if ← look (fun _ => Check.accepts actual expected) then
        argumentsFit callee (position + 1) arguments parameters
      else fail argument.line (.argumentType position callee expected actual.name)
  | _, _ => return ()

end

/-- The operands of an expression. -/
def expression (expression : Expression) : Walk Unit :=
  step "expression" (expression.operands.forM fun operand => look (Check.reference · operand))

/-- The expressions of a condition. -/
def comparison (comparison : Comparison) : Walk Unit :=
  step "comparison" (comparison.expressions.forM Walk.expression)

/-- A declaration. -/
def declaration (name type : Token) (value : Value) : Walk Unit := do
  look fun environment => do
    if let some existing := environment.declaredHere? name.lexeme then
      Check.fail name.line (.redeclaration name.lexeme existing.type)
  let actual ← valueType value
  if ← look (fun _ => Check.accepts actual type.lexeme) then
    modify fun walker => walker.declareVariable ⟨name.lexeme, type.lexeme⟩
  else fail name.line (.declarationType name.lexeme type.lexeme actual.name)

/-- An assignment. -/
def manipulation (target : Token) (value : Expression) : Walk Unit := do
  look fun environment => do
    if (environment.binding? target.lexeme).isNone then
      Check.fail target.line (.undeclaredTarget target.lexeme)
  expression value

/-- Walk through a block whose frame starts out with the variables `bindings`. -/
def inBlock (bindings : List Binding) (walk : Walk Unit) : Walk Unit := do
  let before := (← get).scene
  modify fun walker => walker.note (.came before)
  modify Walker.push
  bindings.forM fun binding => modify fun walker => walker.declareVariable binding
  try walk finally modify Walker.pop
  modify fun walker => walker.note (.left before walker.scene)

/-- Write down where a statement starts, and where it has led to if it is accepted. -/
def passing (statement : Statement) (walk : Walk Unit) : Walk Unit := do
  let before := (← get).scene
  modify fun walker => walker.note (.came before)
  walk
  modify fun walker => walker.note (.passed statement before walker.scene)

section Statements

/-! As in static analysis, `hoisted` says how to walk through a placeholder. -/

variable (hoisted : Nat → Nat → Walk Unit)

mutual

/-- Walk through a statement. -/
def statement : Statement → Walk Unit
  | .declaration name type value => step "declaration" (declaration name type value)
  | .manipulation target value => step "manipulation" (manipulation target value)
  | .call callee arguments =>
      step "call" do
        let _ ← callResult callee arguments.length (argumentsFit callee.lexeme 1 arguments)
  | .forRange _ counter start stop body =>
      step "for" do
        look (Check.reference · start)
        look (Check.reference · stop)
        inBlock [⟨counter.lexeme, .int⟩] (block body)
  | .whileLoop _ condition body =>
      step "while" do
        comparison condition
        inBlock [] (block body)
  | .ifChain branchList otherwise =>
      step "if" do
        branches branchList
        match otherwise with
        | none => return ()
        | some body => inBlock [] (block body)
  | .returnValue keyword value => step "return" (look (Check.returnValue · keyword value))
  | .hoisted index line => step "function" (hoisted index line)

/-- Walk through the statements of a block. -/
def block : Block Statement → Walk Unit
  | ⟨_, list⟩ => statements list

/-- Walk through the branches of a chain. -/
def branches : List (Branch Statement) → Walk Unit
  | [] => return ()
  | ⟨_, condition, body⟩ :: later => do
      comparison condition
      inBlock [] (block body)
      branches later

/-- Walk through several statements. -/
def statements : List Statement → Walk Unit
  | [] => return ()
  | first :: later => do
      passing first (statement first)
      statements later

end

end Statements

/-- Walk through a placeholder and the body of its function, entering at most `bound` bodies
    inside one another. -/
def definition (functions : List Definition) : Nat → Nat → Nat → Walk Unit
  | 0, index, line => fail line (.endlessDefinition index)
  | bound + 1, index, line =>
      match functions[index]? with
      | none => fail line (.missingDefinition index)
      | some definition => do
          modify fun walker => walker.declareFunction definition.signature
          let outer := (← get).scene
          modify Walker.isolate
          try
            inBlock definition.bindings (block (Walk.definition functions bound) definition.body)
          finally
            modify fun walker => walker.restore outer

end Walk

namespace Program

variable (program : Program) (bindings : List Binding) (functions : List Signature)

/-- Walk through a program. -/
def walk : Walk Unit := do
  Walk.statements (Walk.definition program.functions program.definitionBound) program.body
  modify fun walker =>
    walker.report (.analyzed program.body.length program.functions.length)

/-- The end of a walk through a program whose outermost frame starts out with the given names. -/
def walked (events : Array Event) : EStateM.Result Failure Walker Unit :=
  program.walk ⟨⟨[⟨bindings, functions⟩], ["analyze"], false⟩, events, []⟩

/-- What the walk has written down at its end, whether or not it has succeeded. -/
def record : List Entry :=
  match program.walked bindings functions #[] with
  | .ok _ walker => walker.record
  | .error _ walker => walker.record

/-- The walk with nothing but its outcome and its events. -/
def traced : Traced Unit := fun events =>
  match program.walked bindings functions events with
  | .ok value walker => .ok value walker.events
  | .error failure walker => .error failure walker.events

end Program

/-! ## What only looks -/

namespace Walk

variable {α β : Type}

/-- What is done at the end is done whether or not the walk succeeds. -/
theorem run_finally (walk : Walk α) (close : Walker → Walker) (walker : Walker) :
    (try walk finally modify close : Walk α) walker =
      match walk walker with
      | .ok value walker => .ok value (close walker)
      | .error failure walker => .error failure (close walker) := by
  cases run : walk walker <;>
    simp only [tryFinally, tryFinally', Functor.map, EStateM.map, run] <;> rfl

/-- A sequence of walks runs the second one from where the first has come to, with its value. If the
    first one fails, so does the sequence. -/
theorem run_bind (walk : Walk α) (next : α → Walk β) (walker : Walker) :
    EStateM.bind walk next walker =
      match walk walker with
      | .ok value walker => next value walker
      | .error failure walker => .error failure walker := by
  unfold EStateM.bind
  cases walk walker <;> rfl

/-- Looking at the place twice in a row is looking at it once, since looking does not change it. -/
theorem look_bind (check : Environment → Check α) (next : α → Environment → Check β) :
    (look check >>= fun value => look (next value)) =
      look fun environment => check environment >>= fun value => next value environment := by
  funext walker
  simp only [look, bind, EStateM.bind, ReaderT.bind]
  cases check walker.scene.environment ⟨walker.scene.trail, walker.scene.inFunction⟩
    walker.events <;> rfl

/-- A step with the end of its trail: the name is put on the trail for the walk inside and taken off
    again, whether it succeeds or fails. -/
theorem run_step (name : String) (walk : Walk α) (walker : Walker) :
    step name walk walker =
      match walk (walker.within name) with
      | .ok value walker => .ok value walker.without
      | .error failure walker => .error failure walker.without :=
  run_finally walk Walker.without (walker.within name)

/-- A step around a look at the place is a look, with the step in the check. -/
theorem step_look (name : String) (check : Environment → Check α) :
    step name (look check) = look fun environment => Check.step name (check environment) := by
  funext walker
  have inside : look check (walker.within name) =
      match Check.step name (check walker.scene.environment)
        ⟨walker.scene.trail, walker.scene.inFunction⟩ walker.events with
      | .ok value after => .ok value { walker.within name with events := after }
      | .error failure after => .error failure { walker.within name with events := after } := rfl
  rw [run_step, inside, look]
  cases Check.step name (check walker.scene.environment)
      ⟨walker.scene.trail, walker.scene.inFunction⟩ walker.events <;>
    simp [Walker.without, Walker.within]

/-- A check of a call looks at the place if the checks of its arguments do. -/
theorem callResult_look (callee : Token) (count : Nat) {arguments : List TypeName → Walk Unit}
    {check : Environment → List TypeName → Check Unit}
    (looks : ∀ expected, arguments expected = look (check · expected)) :
    callResult callee count arguments =
      look fun environment => Check.callResult environment callee count (check environment) := by
  unfold callResult Check.callResult
  rw [← look_bind]
  refine congrArg _ (funext fun signature => ?_)
  let result : StaticType := .named signature.returns
  have fits : (arguments signature.parameters >>= fun _ => pure result) =
      look fun environment => check environment signature.parameters >>= fun _ => pure result := by
    rw [looks]
    exact look_bind _ fun _ _ => pure _
  split
  · exact (congrArg _ (funext fun _ => fits)).trans (look_bind _ _)
  · exact fits

mutual

/-- Finding the type of a value only looks at the place, calls included. The recursion is on the
    value. -/
theorem valueType_look : ∀ value : Value, valueType value = look (Check.valueType · value)
  | .terminal token => by simp only [valueType, Check.valueType]
  | .call callee arguments => by
      simp only [valueType, Check.valueType]
      rw [callResult_look callee arguments.length
        (fun expected => argumentsFit_look callee.lexeme 1 arguments expected), step_look]

/-- Comparing arguments with the types that are expected only looks at the place, one argument after
    another. -/
theorem argumentsFit_look (callee : String) (position : Nat) :
    ∀ (arguments : List Value) (expected : List TypeName),
      argumentsFit callee position arguments expected =
        look (Check.argumentsFit · callee position arguments expected)
  | argument :: arguments, expected :: parameters => by
      simp only [argumentsFit, Check.argumentsFit]
      rw [valueType_look argument, ← look_bind]
      refine congrArg _ (funext fun actual => ?_)
      rw [← look_bind]
      refine congrArg _ (funext fun accepted => ?_)
      cases accepted with
      | true => exact argumentsFit_look callee (position + 1) arguments parameters
      | false => rfl
  | [], _ => by
      simp only [argumentsFit, Check.argumentsFit]
      rfl
  | _ :: _, [] => by
      simp only [argumentsFit, Check.argumentsFit]
      rfl

end

/-- Looking at the place for every item of a list is one look at the place, by induction on the
    list. -/
theorem forM_look {items : List β} (check : Environment → β → Check Unit) :
    (items.forM fun item => look (check · item)) =
      look fun environment => items.forM (check environment) := by
  induction items with
  | nil => rfl
  | cons item items ih =>
      change (look (check · item) >>= fun _ => items.forM fun item => look (check · item)) =
        look fun environment => check environment item >>= fun _ => items.forM (check environment)
      rw [ih]
      exact look_bind _ _

/-- Checking an expression only looks at the place, for every operand does. -/
theorem expression_look (value : Expression) :
    expression value = look (Check.expression · value) := by
  rw [expression, forM_look, step_look]
  rfl

/-- Checking an assignment only looks at the place, since it declares nothing. -/
theorem manipulation_look (target : Token) (value : Expression) :
    manipulation target value = look (Check.manipulation · target value) := by
  unfold manipulation
  rw [expression_look]
  refine (look_bind _ _).trans (congrArg look (funext fun environment => ?_))
  unfold Check.manipulation
  split <;> rfl

/-- Checking a condition only looks at the place, for the expressions on both sides do. -/
theorem comparison_look (condition : Comparison) :
    comparison condition = look (Check.comparison · condition) := by
  have each : expression = fun value => look (Check.expression · value) :=
    funext expression_look
  rw [comparison, each, forM_look, step_look]
  rfl

end Walk

/-! ## What an accepted statement leaves -/

/-- The frame that a statement makes of the innermost one: a declaration adds one variable at the
    end, a placeholder adds one function, and any other statement leaves the frame as it is. -/
def Frame.After (functions : List Definition) (frame : Frame) : Statement → Frame → Prop
  | .declaration name type _, after =>
      after = { frame with bindings := frame.bindings ++ [⟨name.lexeme, type.lexeme⟩] }
  | .hoisted index _, after => ∃ definition, functions[index]? = some definition ∧
      after = { frame with functions := frame.functions ++ [definition.signature] }
  | _, after => after = frame

/-- What an entry has to say of a walk that keeps its scope. The stack is never empty. A statement
    extends the innermost frame alone, and leaves the height of the stack, the trail and the flag
    as they were. A block leaves the place as it was. -/
def Entry.Balanced (functions : List Definition) : Entry → Prop
  | came scene => scene.frames ≠ []
  | refilled => False
  | passed statement before after => ∃ innermost last enclosing,
      before.frames = innermost :: enclosing ∧ innermost.After functions statement last ∧
        after = { before with frames := last :: enclosing }
  | left before after => before.frames ≠ [] ∧ after = before

/-- Every entry says so. -/
def Balanced (functions : List Definition) (record : List Entry) : Prop :=
  ∀ entry ∈ record, entry.Balanced functions

/-- A balanced record stays so with one more entry that is balanced. -/
theorem Balanced.note {functions : List Definition} {record : List Entry} {entry : Entry}
    (balanced : Balanced functions record) (more : entry.Balanced functions) :
    Balanced functions (record ++ [entry]) :=
  List.forall_mem_append.mpr ⟨balanced, List.forall_mem_singleton.mpr more⟩

/-- The walker in an environment and at a site. -/
def Walker.at (environment : Environment) (site : Site) (events : Array Event)
    (record : List Entry) : Walker :=
  ⟨⟨environment.frames, site.trail, site.inFunction⟩, events, record⟩

namespace Walk

/-- A check and a walk end alike. The walk has not touched the frames around the innermost one,
    also if it has failed, and its record is balanced. -/
inductive Alike (functions : List Definition) (enclosing : List Frame) (site : Site) :
    EStateM.Result Failure (Array Event) Environment → EStateM.Result Failure Walker Unit → Prop
  | ok {innermost : Frame} {after : Array Event} {record : List Entry}
      (balanced : Balanced functions record) :
      Alike functions enclosing site (.ok ⟨innermost, enclosing⟩ after)
        (.ok () (.at ⟨innermost, enclosing⟩ site after record))
  | error {failure : Failure} {innermost : Frame} {after : Array Event} {record : List Entry}
      (balanced : Balanced functions record) :
      Alike functions enclosing site (.error failure after)
        (.error failure (.at ⟨innermost, enclosing⟩ site after record))

/-- From an environment the walk ends like the check, at every site. -/
def Follows (functions : List Definition) (environment : Environment) (walk : Walk Unit)
    (check : Check Environment) : Prop :=
  ∀ site events record, Balanced functions record →
    Alike functions environment.enclosing site (check site events)
      (walk (.at environment site events record))

/-- The walk ends like a check that gives no new environment. -/
def Keeps (functions : List Definition) (walk : Walk Unit) (check : Environment → Check Unit) :
    Prop :=
  ∀ environment, Follows functions environment walk
    (check environment >>= fun _ => pure environment)

variable {functions : List Definition} {environment : Environment} {α : Type}

/-- A walk that does nothing follows a check that returns its environment. -/
theorem follows_pure : Follows functions environment (pure ()) (pure environment) :=
  fun _ _ _ balanced => .ok balanced

/-- Walks one after another follow checks one after another, where the second check gets the
    environment that the first has left. -/
theorem Follows.bind {walk later : Walk Unit} {check : Check Environment}
    {next : Environment → Check Environment} (first : Follows functions environment walk check)
    (second : ∀ environment, Follows functions environment later (next environment)) :
    Follows functions environment (walk >>= fun _ => later) (check >>= next) := by
  intro site events record balanced
  have alike := first site events record balanced
  change Alike functions environment.enclosing site
    (EStateM.bind (check site) (fun value => next value site) events)
    (EStateM.bind walk (fun _ => later) _)
  unfold EStateM.bind
  generalize check site events = outcome at alike ⊢
  generalize walk _ = result at alike ⊢
  cases alike with
  | @ok innermost after record balanced =>
      exact second ⟨innermost, environment.enclosing⟩ site after record balanced
  | error balanced => exact .error balanced

/-- A walk in a step follows a check in a step of the same name. -/
theorem Follows.step {walk : Walk Unit} {check : Check Environment} (name : String)
    (follows : Follows functions environment walk check) :
    Follows functions environment (step name walk) (Check.step name check) := by
  intro site events record balanced
  let inside : Site := { site with trail := site.trail ++ [name] }
  have alike := follows inside events record balanced
  have entered : (Walker.at environment site events record).within name =
      .at environment inside events record := rfl
  have checked : Check.step name check site events = check inside events := rfl
  rw [run_step, entered, checked]
  have back (environment : Environment) (after : Array Event) (record : List Entry) :
      (Walker.at environment inside after record).without =
        .at environment site after record := by
    simp [Walker.at, Walker.without, inside]
  generalize check inside events = outcome at alike ⊢
  generalize walk _ = result at alike ⊢
  cases alike with
  | ok balanced =>
      simp only [back]
      exact .ok balanced
  | error balanced =>
      simp only [back]
      exact .error balanced

/-- What looks at the place goes on from it, so it follows a check that gets the same value from its
    environment. -/
theorem Follows.look {check : Environment → Check α} {later : α → Walk Unit}
    {next : α → Check Environment}
    (onward : ∀ value, Follows functions environment (later value) (next value)) :
    Follows functions environment (look check >>= later) (check environment >>= next) := by
  intro site events record balanced
  change Alike functions environment.enclosing site
    (EStateM.bind (check environment site) (fun value => next value site) events)
    (EStateM.bind (Walk.look check) later (.at environment site events record))
  have looked : Walk.look check (.at environment site events record) =
      match check environment site events with
      | .ok value after => .ok value (.at environment site after record)
      | .error failure after => .error failure (.at environment site after record) := rfl
  unfold EStateM.bind
  rw [looked]
  cases check environment site events with
  | ok value after => exact onward value site after record balanced
  | error failure after => exact .error balanced

/-- Looking at the place keeps it, and adds nothing to the record. -/
theorem keeps_look (check : Environment → Check Unit) : Keeps functions (look check) check := by
  intro environment
  have bound : Walk.look check = Walk.look check >>= fun _ => pure () := (bind_pure_unit).symm
  rw [bound]
  exact .look fun _ => follows_pure

/-- A walk that keeps the place does so in a step, and the trail is as before. -/
theorem Keeps.step {walk : Walk Unit} {check : Environment → Check Unit} (name : String)
    (keeps : Keeps functions walk check) :
    Keeps functions (step name walk) fun environment => Check.step name (check environment) :=
  fun environment => (keeps environment).step name

/-- Two walks that keep the place, one after the other, keep it. -/
theorem Keeps.seq {walk later : Walk Unit} {check next : Environment → Check Unit}
    (first : Keeps functions walk check) (second : Keeps functions later next) :
    Keeps functions (walk >>= fun _ => later)
      fun environment => check environment >>= fun _ => next environment := by
  intro environment
  have both := (first environment).bind second
  simpa only [bind_assoc, pure_bind] using both

/-! ## Blocks -/

/-- A check inside a block, between the two reports of the block. -/
theorem run_checkInBlock (environment : Environment) (bindings : List Binding)
    (check : Environment → Check Environment) (site : Site) (events : Array Event) :
    Check.inBlock environment bindings check site events =
      match check (environment.enter bindings) site
        (events.push (.enteredScope (environment.enter bindings).depth)) with
      | .ok _ after => .ok () (after.push (.leftScope environment.depth))
      | .error failure after => .error failure (after.push (.leftScope environment.depth)) := by
  let inner := environment.enter bindings
  let caught : Check Environment := tryCatch (check inner) fun failure => do
    Check.report (.leftScope environment.depth)
    throw failure
  have split : Check.inBlock environment bindings check site events =
      EStateM.bind (caught site) (fun _ => Traced.report (.leftScope environment.depth))
        (events.push (.enteredScope inner.depth)) := rfl
  have tried : caught site = EStateM.tryCatch (check inner site) fun failure =>
      EStateM.bind (Traced.report (.leftScope environment.depth)) fun _ => throw failure := rfl
  rw [split, tried]
  unfold EStateM.bind EStateM.tryCatch
  cases check inner site (events.push (.enteredScope inner.depth)) <;> rfl

/-- Variables are declared one after another, all at the end of the innermost frame. The induction
    is on the variables. -/
theorem run_declareAll (bindings : List Binding) (environment : Environment) (site : Site)
    (events : Array Event) (record : List Entry) :
    (bindings.forM fun binding => modify fun walker => walker.declareVariable binding : Walk Unit)
        (.at environment site events record) =
      .ok () (.at ⟨{ environment.innermost with
        bindings := environment.innermost.bindings ++ bindings }, environment.enclosing⟩ site events
          record) := by
  induction bindings generalizing environment with
  | nil => simp only [List.append_nil]; rfl
  | cons binding bindings ih =>
      have later := ih (environment.declareVariable binding)
      simp only [Environment.declareVariable, List.append_assoc, List.singleton_append] at later
      exact later

/-- A walk through a block, between its two reports. The frame of the block is popped from
    whatever stack the walk inside has left. -/
theorem run_inBlock (bindings : List Binding) (walk : Walk Unit) (environment : Environment)
    (site : Site) (events : Array Event) (record : List Entry) :
    let scene := (Walker.at environment site events record).scene
    inBlock bindings walk (.at environment site events record) =
      match walk (.at (environment.enter bindings) site
        (events.push (.enteredScope (environment.enter bindings).depth))
          (record ++ [.came scene])) with
      | .ok _ walker => .ok () (walker.pop.note (.left scene walker.pop.scene))
      | .error failure walker => .error failure walker.pop := by
  intro scene
  let inside (bindings : List Binding) (depth : Nat) : Walker :=
    .at (environment.enter bindings) site (events.push (.enteredScope depth))
      (record ++ [.came scene])
  let depth := (environment.enter bindings).depth
  have split : inBlock bindings walk (.at environment site events record) =
      EStateM.bind
        (bindings.forM fun binding => modify fun walker => walker.declareVariable binding)
        (fun _ => EStateM.bind (try walk finally modify Walker.pop) fun _ =>
          modify fun walker => walker.note (.left scene walker.scene)) (inside [] depth) := rfl
  have declared : (bindings.forM fun binding => modify fun walker =>
      walker.declareVariable binding : Walk Unit) (inside [] depth) =
        .ok () (inside bindings depth) :=
    run_declareAll bindings (environment.enter []) site _ _
  rw [split, run_bind, declared]
  dsimp only
  rw [run_bind, run_finally]
  change _ = match walk (inside bindings depth) with
    | .ok _ _ => _
    | .error _ _ => _
  cases walk (inside bindings depth) <;> rfl

/-- A block keeps the place, if what is in it follows its check. Its frame is pushed and popped, and
    its entry is balanced, even if the check fails. -/
theorem Keeps.inBlock {walk : Walk Unit} {check : Environment → Check Environment}
    (bindings : List Binding)
    (inside : ∀ environment, Follows functions environment walk (check environment)) :
    Keeps functions (inBlock bindings walk)
      fun environment => Check.inBlock environment bindings check := by
  intro environment site events record balanced
  let scene := (Walker.at environment site events record).scene
  have arrived : (Entry.came scene).Balanced functions := List.cons_ne_nil _ _
  have alike := inside (environment.enter bindings) site
    (events.push (.enteredScope (environment.enter bindings).depth)) _ (balanced.note arrived)
  change Alike functions environment.enclosing site
    (EStateM.bind (Check.inBlock environment bindings check site)
      (fun _ => EStateM.pure environment) events) _
  unfold EStateM.bind
  rw [run_inBlock, run_checkInBlock]
  generalize check _ _ _ = outcome at alike ⊢
  generalize walk _ = result at alike ⊢
  cases alike with
  | ok balanced => exact .ok (balanced.note ⟨List.cons_ne_nil _ _, rfl⟩)
  | error balanced => exact .error balanced

/-! ## Statements -/

/-- A declaration follows its check: the variable is added in place where the check gives a new
    environment. -/
theorem follows_declaration (name type : Token) (value : Value) :
    Follows functions environment (declaration name type value)
      (Check.declaration environment name type value) := by
  have declares : Follows functions environment
      (modify fun walker => walker.declareVariable ⟨name.lexeme, type.lexeme⟩)
      (pure (environment.declareVariable ⟨name.lexeme, type.lexeme⟩)) :=
    fun _ _ _ balanced => .ok balanced
  have fails (fault : TypingFault) : Follows functions environment (fail name.line fault)
      (Check.fail name.line fault) := fun _ _ _ balanced => .error balanced
  have guarded : Check.declaration environment name type value =
      (do
        if let some existing := environment.declaredHere? name.lexeme then
          Check.fail name.line (.redeclaration name.lexeme existing.type)) >>= fun _ => (do
        let actual ← Check.valueType environment value
        if ← Check.accepts actual type.lexeme then
          return environment.declareVariable ⟨name.lexeme, type.lexeme⟩
        else Check.fail name.line (.declarationType name.lexeme type.lexeme actual.name)) := by
    unfold Check.declaration
    cases environment.declaredHere? name.lexeme <;> rfl
  rw [guarded, declaration, valueType_look]
  refine .look fun _ => .look fun actual => .look fun accepted => ?_
  cases accepted with
  | true => exact declares
  | false => exact fails _

/-- A frame after a statement that has been accepted has what this statement adds, and nothing
    else. -/
theorem after_past {next : Environment} {statement : Statement}
    {hoisted : Nat → Nat → Environment → Check Environment}
    (declares : Check.Declares functions hoisted)
    (gives : Check.Gives (Check.statement hoisted environment statement) next) :
    environment.innermost.After functions statement next.innermost := by
  obtain ⟨past, -⟩ := Check.gives_statement declares gives
  cases statement with
  | hoisted index line =>
      rw [Check.statement] at gives
      obtain ⟨definition, found, rfl⟩ := declares (Check.gives_step gives)
      exact ⟨definition, found, rfl⟩
  | _ =>
      rw [past]
      simp [Environment.past, Frame.After, declaredIn, definedIn]

/-- A statement that the walk goes past is written down with what it has left. -/
theorem Follows.passing {statement : Statement} {walk : Walk Unit}
    {hoisted : Nat → Nat → Environment → Check Environment}
    (declares : Check.Declares functions hoisted)
    (follows : Follows functions environment walk
      (Check.statement hoisted environment statement)) :
    Follows functions environment (Walk.passing statement walk)
      (Check.statement hoisted environment statement) := by
  intro site events record balanced
  let scene := (Walker.at environment site events record).scene
  have arrived : (Entry.came scene).Balanced functions := List.cons_ne_nil _ _
  have alike := follows site events _ (balanced.note arrived)
  have split : Walk.passing statement walk (.at environment site events record) =
      EStateM.bind walk (fun _ => modify fun walker =>
        walker.note (.passed statement scene walker.scene))
        (.at environment site events (record ++ [.came scene])) := rfl
  rw [split]
  unfold EStateM.bind
  generalize run : Check.statement hoisted environment statement site events = outcome at alike ⊢
  generalize walk _ = result at alike ⊢
  cases alike with
  | ok balanced =>
      have after := after_past declares ⟨site, events, _, run⟩
      exact .ok (balanced.note ⟨_, _, _, rfl, after, rfl⟩)
  | error balanced => exact .error balanced

section Statements

variable {hoisted : Nat → Nat → Walk Unit}
  {checkHoisted : Nat → Nat → Environment → Check Environment}

/-- The walk goes through placeholders as they are checked. -/
structure HoistedAlike (functions : List Definition) (hoisted : Nat → Nat → Walk Unit)
    (checkHoisted : Nat → Nat → Environment → Check Environment) : Prop where
  declares : Check.Declares functions checkHoisted
  follows : ∀ index line environment,
    Follows functions environment (hoisted index line) (checkHoisted index line environment)

mutual

/-- A statement follows its check. The recursion is on the statement, its blocks and its branches
    together, for all environments. -/
theorem follows_statement (alike : HoistedAlike functions hoisted checkHoisted) :
    ∀ (statement : Statement) (environment : Environment),
    Follows functions environment (Walk.statement hoisted statement)
      (Check.statement checkHoisted environment statement)
  | .declaration name type value, environment => by
      simp only [Walk.statement, Check.statement]
      exact (follows_declaration name type value).step "declaration"
  | .manipulation target value, environment => by
      simp only [Walk.statement, Check.statement]
      rw [manipulation_look]
      exact (keeps_look _).step "manipulation" environment
  | .call callee arguments, environment => by
      have arguments_look := argumentsFit_look callee.lexeme 1 arguments
      simp only [Walk.statement, Check.statement]
      rw [callResult_look callee arguments.length arguments_look]
      exact (Follows.look fun _ => follows_pure).step "call"
  | .forRange keyword counter start stop body, environment => by
      have inside := Keeps.inBlock [⟨counter.lexeme, .int⟩] (follows_block alike body)
      simp only [Walk.statement, Check.statement]
      exact ((keeps_look _).seq ((keeps_look _).seq inside)).step "for" environment
  | .whileLoop keyword condition body, environment => by
      have inside := Keeps.inBlock [] (follows_block alike body)
      simp only [Walk.statement, Check.statement]
      rw [comparison_look]
      exact ((keeps_look _).seq inside).step "while" environment
  | .ifChain list none, environment => by
      simp only [Walk.statement, Check.statement]
      have nothing : Keeps functions (pure ()) fun _ => pure () := fun _ => follows_pure
      exact ((keeps_branches alike list).seq nothing).step "if" environment
  | .ifChain list (some body), environment => by
      have inside := Keeps.inBlock [] (follows_block alike body)
      simp only [Walk.statement, Check.statement]
      exact ((keeps_branches alike list).seq inside).step "if" environment
  | .returnValue keyword value, environment => by
      simp only [Walk.statement, Check.statement]
      exact (keeps_look _).step "return" environment
  | .hoisted index line, environment => by
      simp only [Walk.statement, Check.statement]
      exact (alike.follows index line environment).step "function"

/-- A block follows its check, statement by statement, and its line has no part in it. -/
theorem follows_block (alike : HoistedAlike functions hoisted checkHoisted) :
    ∀ (body : Block Statement) (environment : Environment),
    Follows functions environment (Walk.block hoisted body)
      (Check.block checkHoisted environment body)
  | ⟨line, list⟩, environment => by
      simp only [Walk.block, Check.block]
      exact follows_statements alike list environment

/-- Branches keep the place, for each of their blocks does, and so do their conditions. -/
theorem keeps_branches (alike : HoistedAlike functions hoisted checkHoisted) :
    ∀ list : List (Branch Statement),
    Keeps functions (Walk.branches hoisted list)
      fun environment => Check.branches checkHoisted environment list
  | [] => by
      simp only [Walk.branches, Check.branches]
      exact fun _ => follows_pure
  | ⟨keyword, condition, body⟩ :: later => by
      have inside := Keeps.inBlock [] (follows_block alike body)
      simp only [Walk.branches, Check.branches]
      rw [comparison_look]
      exact (keeps_look _).seq (inside.seq (keeps_branches alike later))

/-- A list of statements follows its check, and each statement that is accepted adds a balanced
    entry. -/
theorem follows_statements (alike : HoistedAlike functions hoisted checkHoisted) :
    ∀ (list : List Statement) (environment : Environment),
    Follows functions environment (Walk.statements hoisted list)
      (Check.statements checkHoisted environment list)
  | [], environment => by
      simp only [Walk.statements, Check.statements]
      exact follows_pure
  | first :: later, environment => by
      simp only [Walk.statements, Check.statements]
      exact (Follows.passing alike.declares (follows_statement alike first environment)).bind
        (follows_statements alike later)

end

end Statements

/-! ## Definitions and programs -/

/-- The body of a function is walked through on a stack of its own, and whatever has become of
    that stack, the one outside is put back. -/
theorem Keeps.isolated {walk : Walk Unit} {check : Environment → Check Unit}
    (keeps : Keeps functions walk check) (environment : Environment) :
    Follows functions environment
      (do
        let outer := (← get).scene
        modify Walker.isolate
        try walk finally modify fun walker => walker.restore outer)
      (do
        withReader (fun site => { site with inFunction := true })
          (check (.seeded [] environment.visibleFunctions))
        return environment) := by
  intro site events record balanced
  let body : Environment := ⟨⟨[], environment.visibleFunctions⟩, []⟩
  let inside : Site := { site with inFunction := true }
  let outer := (Walker.at environment site events record).scene
  have alike := keeps body inside events record balanced
  change Alike functions environment.enclosing site
    (EStateM.bind (check body inside) (fun _ => EStateM.pure environment) events)
    ((try walk finally modify fun walker => walker.restore outer : Walk Unit)
      (.at body inside events record))
  change Alike functions [] inside
    (EStateM.bind (check body inside) (fun _ => EStateM.pure body) events) _ at alike
  rw [run_finally]
  unfold EStateM.bind at alike ⊢
  generalize walk _ = result at alike ⊢
  generalize check body inside events = outcome at alike ⊢
  clear_value body
  cases outcome with
  | ok value after =>
      cases alike with
      | ok balanced => exact .ok balanced
  | error failure after =>
      cases alike with
      | error balanced => exact .error balanced

/-- Placeholders are gone through as they are checked. The stack is swapped for the body and put
    back, by induction on the bound for bodies inside one another. -/
theorem hoistedAlike_definition (functions : List Definition) (bound : Nat) :
    HoistedAlike functions (definition functions bound) (Check.definition functions bound) := by
  refine ⟨Check.declares_definition functions bound, ?_⟩
  induction bound with
  | zero => exact fun _ _ _ _ _ _ balanced => .error balanced
  | succ bound ih =>
      intro index line environment
      have inner : HoistedAlike functions (definition functions bound)
          (Check.definition functions bound) := ⟨Check.declares_definition functions bound, ih⟩
      unfold Walk.definition Check.definition
      cases functions[index]? with
      | none => exact fun _ _ _ balanced => .error balanced
      | some definition =>
          have body := (Keeps.inBlock definition.bindings
            (follows_block inner definition.body)).isolated
              (environment.declareFunction definition.signature)
          exact fun site events record balanced => body site events record balanced

end Walk

/-- The walk through a program ends like its analysis, with a record that is balanced. -/
theorem walked_eq (program : Program) (bindings : List Binding) (signatures : List Signature)
    (events : Array Event) :
    ∃ scene record, Balanced program.functions record ∧
      program.walked bindings signatures events =
        match program.analyze bindings signatures events with
        | .ok value after => .ok value ⟨scene, after, record⟩
        | .error failure after => .error failure ⟨scene, after, record⟩ := by
  let site : Site := ⟨["analyze"], false⟩
  let analyzed : Event := .analyzed program.body.length program.functions.length
  let walk := Walk.statements (Walk.definition program.functions program.definitionBound)
    program.body
  let check := Check.statements (Check.definition program.functions program.definitionBound)
    (.seeded bindings signatures) program.body
  have alike : Walk.Alike program.functions [] site (check site events)
      (walk (.at (.seeded bindings signatures) site events [])) :=
    Walk.follows_statements (Walk.hoistedAlike_definition program.functions _) program.body
      (.seeded bindings signatures) site events [] (List.forall_mem_nil _)
  have walked : program.walked bindings signatures events =
      EStateM.bind walk (fun _ => modify fun walker => walker.report analyzed)
        (.at (.seeded bindings signatures) site events []) := rfl
  have checked : program.analyze bindings signatures events =
      EStateM.bind (check site) (fun _ => Traced.report analyzed) events := rfl
  rw [walked, checked]
  unfold EStateM.bind
  generalize check site events = outcome at alike ⊢
  generalize walk _ = result at alike ⊢
  cases alike with
  | ok balanced => exact ⟨_, _, balanced, rfl⟩
  | error balanced => exact ⟨_, _, balanced, rfl⟩

/-- The walk that changes one stack in place has the outcome of static analysis and reports the
    same events. Wherever it comes to, there is a frame on the stack, so it never has to make one.
    Each statement that it accepts, with everything inside it, leaves all frames but the innermost
    as they were and extends that one by what it declares; each block that it accepts leaves
    everything as it was. -/
theorem record_balanced (program : Program) (bindings : List Binding)
    (signatures : List Signature) :
    program.traced bindings signatures = program.analyze bindings signatures ∧
      Balanced program.functions (program.record bindings signatures) := by
  constructor
  · funext events
    obtain ⟨scene, record, -, ends⟩ := walked_eq program bindings signatures events
    rw [Program.traced, ends]
    cases program.analyze bindings signatures events <;> rfl
  · obtain ⟨scene, record, balanced, ends⟩ := walked_eq program bindings signatures #[]
    rw [Program.record, ends]
    cases program.analyze bindings signatures #[] <;> exact balanced

/-- A loop that declares a variable. -/
example :
    let word (kind : Kind) (lexeme : String) : Token := ⟨kind, lexeme, 1⟩
    let declared : Statement := .declaration (word .identifier "x") (word .identifier "int")
      (.terminal (word .identifier "i"))
    let loop : Statement := .forRange (word .forWord "for") (word .identifier "i")
      (word .intLiteral "0") (word .intLiteral "2") ⟨1, [declared]⟩
    let outside : Scene := ⟨[⟨[], []⟩], ["analyze"], false⟩
    let entering : Scene := { outside with trail := ["analyze", "for"] }
    let inside (bindings : List Binding) : Scene :=
      { entering with frames := [⟨bindings, []⟩, ⟨[], []⟩] }
    Program.record ⟨⟨word .identifier "GoType", none, 1⟩, [loop], []⟩ [] [] =
      [.came outside, .came entering, .came (inside [⟨"i", "int"⟩]),
        .passed declared (inside [⟨"i", "int"⟩]) (inside [⟨"i", "int"⟩, ⟨"x", "int"⟩]),
        .left entering entering, .passed loop outside outside] := by
  rfl

end Offside
