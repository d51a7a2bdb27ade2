import Offside.Proofs.Source.Compilation
import Offside.Proofs.Syntax.Hoisting
import Offside.Proofs.Typing.Exactness

/-!
# Names in one block

A block binds the variables that it starts out with and those that it declares. Static
analysis refuses a declaration of a name that its block has already, but it takes what a
block starts out with as it is. A loop has one counter, so it is the parameters of a
function alone that can bind one name twice.

This is followed along the walk. A stage of the walk is a list of statements that is about
to be checked in an environment; what one check does to the frames is said once, for the
step from a stage to the next, and holds of all frames that the walk comes to.
-/

namespace Offside

/-- No two of the variables have one name. -/
def Distinct (bindings : List Binding) : Prop :=
  (bindings.map Binding.name).Nodup

instance (bindings : List Binding) : Decidable (Distinct bindings) :=
  inferInstanceAs (Decidable (List.Nodup _))

/-- The variables bound in the body of a program and in each block of its statements. A loop
    binds its counter. -/
def Program.scopes (program : Program) : List (List Binding) :=
  declaredIn program.body ::
    (program.outline.flatMap fun entry => entry.2.blocks).map fun block =>
      counterBindings block.1 ++ declaredIn block.2.statements

/-- The variables bound in the body of a function. -/
def Definition.scope (definition : Definition) : List Binding :=
  definition.bindings ++ declaredIn definition.body.statements

/-! ## Results of checks -/

namespace Check

variable {α β : Type}

/-- The check can succeed with the value. -/
def Gives (check : Check α) (value : α) : Prop :=
  ∃ site events after, check site events = .ok value after

/-- A sequence that can succeed has a first part that can, with a value for which the second part
    can. -/
theorem gives_bind {check : Check α} {next : α → Check β} {value : β}
    (gives : Gives (check >>= next) value) :
    ∃ middle, Gives check middle ∧ Gives (next middle) value := by
  obtain ⟨site, events, after, run⟩ := gives
  obtain ⟨middle, between, first, second⟩ := Traced.bind_ok_iff.mp run
  exact ⟨middle, ⟨site, events, between, first⟩, site, between, after, second⟩

/-- Returning a value can succeed with this value and with no other one. -/
theorem gives_pure {result value : α} (gives : Gives (pure result) value) : value = result := by
  obtain ⟨site, events, after, run⟩ := gives
  cases run
  rfl

/-- Giving up cannot succeed, with any value, so the fault that it reports does not matter. -/
theorem not_gives_fail {line : Nat} {fault : TypingFault} {value : α} :
    ¬ Gives (fail line fault) value := by
  rintro ⟨site, events, after, run⟩
  cases run

/-- A check inside a step can succeed with the values it can succeed with by itself. -/
theorem gives_step {name : String} {check : Check α} {value : α}
    (gives : Gives (step name check) value) : Gives check value := by
  obtain ⟨site, events, after, run⟩ := gives
  exact ⟨_, events, after, run⟩

/-- If a check inside a block can succeed, it has come to some environment from the one with a new
    frame, which is then given up. -/
theorem gives_inBlock {environment : Environment} {bindings : List Binding}
    {check : Environment → Check Environment} {value : Unit}
    (gives : Gives (inBlock environment bindings check) value) :
    ∃ last, Gives (check (environment.enter bindings)) last := by
  obtain ⟨_, -, gives⟩ := gives_bind gives
  obtain ⟨last, ⟨site, events, after, run⟩, -⟩ := gives_bind gives
  change EStateM.tryCatch (check (environment.enter bindings) site) _ events = .ok last after at run
  refine ⟨last, site, events, after, ?_⟩
  unfold EStateM.tryCatch at run
  split at run
  · cases run
  · exact run

end Check

/-! ## What a statement does to the frames -/

/-- The environment past a statement that has been checked. -/
def Environment.past (functions : List Definition) (environment : Environment)
    (statement : Statement) : Environment :=
  { environment with
    innermost :=
      ⟨environment.innermost.bindings ++ declaredIn [statement],
        environment.innermost.functions ++ definedIn functions [statement]⟩ }

namespace Check

variable {functions : List Definition} {hoisted : Nat → Nat → Environment → Check Environment}
  {environment next : Environment}

/-- If a declaration can succeed, its name was not in the innermost frame, and it is the only thing
    that is new afterwards. -/
theorem gives_declaration {name type : Token} {value : Value}
    (gives : Gives (declaration environment name type value) next) :
    name.lexeme ∉ environment.innermost.bindings.map Binding.name ∧
      next = environment.declareVariable ⟨name.lexeme, type.lexeme⟩ := by
  unfold declaration at gives
  dsimp only at gives
  cases found : environment.declaredHere? name.lexeme with
  | some existing =>
      rw [found] at gives
      obtain ⟨_, failed, -⟩ := gives_bind gives
      exact absurd failed not_gives_fail
  | none =>
      rw [found] at gives
      obtain ⟨actual, -, gives⟩ := gives_bind gives
      obtain ⟨accepted, -, gives⟩ := gives_bind gives
      refine ⟨by simpa [Environment.declaredHere?] using found, ?_⟩
      cases accepted with
      | true => exact gives_pure gives
      | false => exact absurd gives not_gives_fail

/-- A placeholder declares its function and nothing else. -/
def Declares (functions : List Definition)
    (hoisted : Nat → Nat → Environment → Check Environment) : Prop :=
  ∀ {index line environment next}, Gives (hoisted index line environment) next →
    ∃ definition, functions[index]? = some definition ∧
      next = environment.declareFunction definition.signature

/-- A statement that is accepted adds what it declares to the innermost frame, and a variable
    that it declares is a new one there. -/
theorem gives_statement (declares : Declares functions hoisted) {statement : Statement}
    (gives : Gives (Check.statement hoisted environment statement) next) :
    next = environment.past functions statement ∧
      ∀ binding ∈ declaredIn [statement],
        binding.name ∉ environment.innermost.bindings.map Binding.name := by
  have unchanged {α : Type} {check : Check α}
      (kept : Gives (do let _ ← check; return environment) next)
      (declared : declaredIn [statement] = []) (defined : definedIn functions [statement] = []) :
      next = environment.past functions statement ∧
        ∀ binding ∈ declaredIn [statement],
          binding.name ∉ environment.innermost.bindings.map Binding.name := by
    obtain ⟨_, -, kept⟩ := gives_bind kept
    rw [gives_pure kept, Environment.past, declared, defined]
    simp
  cases statement with
  | declaration name type value =>
      rw [Check.statement] at gives
      obtain ⟨fresh, rfl⟩ := gives_declaration (gives_step gives)
      refine ⟨?_, by simpa [declaredIn] using fresh⟩
      simp [Environment.past, Environment.declareVariable, declaredIn, definedIn]
  | hoisted index line =>
      rw [Check.statement] at gives
      obtain ⟨definition, found, rfl⟩ := declares (gives_step gives)
      simp [Environment.past, Environment.declareFunction, declaredIn, definedIn, found]
  | manipulation target value =>
      rw [Check.statement] at gives
      exact unchanged gives rfl rfl
  | call callee arguments =>
      rw [Check.statement] at gives
      exact unchanged gives rfl rfl
  | forRange keyword counter start stop body =>
      rw [Check.statement] at gives
      exact unchanged gives rfl rfl
  | whileLoop keyword condition body =>
      rw [Check.statement] at gives
      exact unchanged gives rfl rfl
  | ifChain branches otherwise =>
      cases otherwise <;> rw [Check.statement] at gives <;> exact unchanged gives rfl rfl
  | returnValue keyword value =>
      rw [Check.statement] at gives
      exact unchanged gives rfl rfl

/-! ## What is checked inside a statement -/

/-- If a block can succeed, its statements can from the environment with the new frame. -/
theorem gives_block {body : Block Statement} {bindings : List Binding} {value : Unit}
    (gives : Gives (inBlock environment bindings fun inner => block hoisted inner body) value) :
    ∃ last, Gives (statements hoisted (environment.enter bindings) body.statements) last := by
  obtain ⟨last, gives⟩ := gives_inBlock gives
  rw [block_eq] at gives
  exact ⟨last, gives⟩

/-- If branches can succeed, the statements of each can, from an environment with an empty frame.
    The induction is on the branches. -/
theorem gives_branches {list : List (Branch Statement)} {value : Unit}
    (gives : Gives (branches hoisted environment list) value) :
    ∀ branch ∈ list, ∃ last,
      Gives (statements hoisted (environment.enter []) branch.body.statements) last := by
  induction list generalizing value with
  | nil => simp
  | cons branch list ih =>
      obtain ⟨keyword, condition, body⟩ := branch
      rw [branches] at gives
      obtain ⟨_, -, gives⟩ := gives_bind gives
      obtain ⟨_, inside, gives⟩ := gives_bind gives
      exact List.forall_mem_cons.mpr ⟨gives_block inside, ih gives⟩

/-- The blocks of a statement that is accepted are accepted, each in a frame of its own that
    has the counter if it is the body of a loop. -/
theorem gives_blocks {statement : Statement}
    (gives : Gives (Check.statement hoisted environment statement) next) :
    ∀ counter body, (counter, body) ∈ statement.blocks → ∃ last,
      Gives (statements hoisted (environment.enter (counterBindings counter)) body.statements)
        last := by
  cases statement with
  | forRange keyword counter start stop body =>
      rw [Check.statement] at gives
      obtain ⟨_, gives, -⟩ := gives_bind gives
      obtain ⟨_, -, gives⟩ := gives_bind (gives_step gives)
      obtain ⟨_, -, gives⟩ := gives_bind gives
      simpa [Statement.blocks, counterBindings] using gives_block gives
  | whileLoop keyword condition body =>
      rw [Check.statement] at gives
      obtain ⟨_, gives, -⟩ := gives_bind gives
      obtain ⟨_, -, gives⟩ := gives_bind (gives_step gives)
      simpa [Statement.blocks, counterBindings] using gives_block gives
  | ifChain branches otherwise =>
      rw [forall_blocks_ifChain]
      cases otherwise with
      | none =>
          rw [Check.statement] at gives
          obtain ⟨_, gives, -⟩ := gives_bind gives
          obtain ⟨_, chain, -⟩ := gives_bind (gives_step gives)
          exact ⟨gives_branches chain, by simp⟩
      | some last =>
          rw [Check.statement] at gives
          obtain ⟨_, gives, -⟩ := gives_bind gives
          obtain ⟨_, chain, gives⟩ := gives_bind (gives_step gives)
          refine ⟨gives_branches chain, ?_⟩
          rintro body ⟨⟩
          exact gives_block gives
  | _ => simp [Statement.blocks]

/-- A placeholder is accepted if there is a definition for it and the body is accepted, in
    frames of its own that have no variables but the parameters. -/
theorem gives_definition {bound index line : Nat}
    (gives : Gives (definition functions bound index line environment) next) :
    ∃ rest definition, bound = rest + 1 ∧ functions[index]? = some definition ∧
      next = environment.declareFunction definition.signature ∧
        ∃ last, Gives (statements (Check.definition functions rest)
          ((Environment.seeded [] next.visibleFunctions).enter definition.bindings)
          definition.body.statements) last := by
  cases bound with
  | zero => exact absurd gives not_gives_fail
  | succ rest =>
      rw [Check.definition] at gives
      split at gives
      · exact absurd gives not_gives_fail
      · rename_i definition found
        obtain ⟨_, inside, gives⟩ := gives_bind gives
        obtain rfl := gives_pure gives
        obtain ⟨site, events, after, run⟩ := inside
        exact ⟨rest, definition, rfl, found, rfl, gives_block ⟨_, events, after, run⟩⟩

/-- The placeholder of a definition declares the function and nothing else, whatever is in its
    body. -/
theorem declares_definition (functions : List Definition) (bound : Nat) :
    Declares functions (definition functions bound) := by
  intro index line environment next gives
  obtain ⟨_, definition, -, found, declared, -⟩ := gives_definition gives
  exact ⟨definition, found, declared⟩

end Check

/-! ## Variables of one frame -/

/-- Variables in two parts have different names exactly if those of either part do and none of the
    second has a name of the first. -/
theorem distinct_append {bindings more : List Binding} :
    Distinct (bindings ++ more) ↔ Distinct bindings ∧ Distinct more ∧
      ∀ binding ∈ more, binding.name ∉ bindings.map Binding.name := by
  simp only [Distinct, List.map_append, List.nodup_append, List.forall_mem_map]
  refine and_congr_right fun _ => and_congr_right fun _ => ⟨fun apart binding isMore => ?_, ?_⟩
  · intro isName
    obtain ⟨other, isOther, same⟩ := List.mem_map.mp isName
    exact apart other isOther binding isMore same
  · intro fresh other isOther binding isMore same
    exact fresh binding isMore (same ▸ List.mem_map_of_mem isOther)

/-- What is declared in two lists of statements is what is declared in the first and then in the
    second. -/
theorem declaredIn_append (first second : List Statement) :
    declaredIn (first ++ second) = declaredIn first ++ declaredIn second :=
  List.filterMap_append

/-- One statement declares one variable at most, so its names are different. -/
theorem distinct_declaredIn_singleton (statement : Statement) :
    Distinct (declaredIn [statement]) := by
  cases statement <;> simp [Distinct, declaredIn]

/-- A loop has one counter at most, so the variables that a block starts out with have different
    names. -/
theorem distinct_counterBindings (counter : Option Token) : Distinct (counterBindings counter) := by
  cases counter <;> simp [Distinct, counterBindings]

/-- If the names in the innermost frame are different, they still are past a statement that was
    accepted, since a declaration has asked for it. -/
theorem distinct_past {functions : List Definition}
    {hoisted : Nat → Nat → Environment → Check Environment}
    (declares : Check.Declares functions hoisted) {environment next : Environment}
    {statement : Statement}
    (gives : Check.Gives (Check.statement hoisted environment statement) next)
    (distinct : Distinct environment.innermost.bindings) : Distinct next.innermost.bindings := by
  obtain ⟨rfl, fresh⟩ := Check.gives_statement declares gives
  exact distinct_append.mpr ⟨distinct, distinct_declaredIn_singleton statement, fresh⟩

/-- Statements that are accepted bind no name twice, unless it is bound twice before
    them. -/
theorem distinct_statements {functions : List Definition}
    {hoisted : Nat → Nat → Environment → Check Environment}
    (declares : Check.Declares functions hoisted) {environment last : Environment}
    {statements : List Statement}
    (gives : Check.Gives (Check.statements hoisted environment statements) last) :
    Distinct (environment.innermost.bindings ++ declaredIn statements) ↔
      Distinct environment.innermost.bindings := by
  refine ⟨fun distinct => (distinct_append.mp distinct).1, fun distinct => ?_⟩
  induction statements generalizing environment with
  | nil => simpa [declaredIn] using distinct
  | cons first later ih =>
      rw [Check.statements] at gives
      obtain ⟨next, here, onward⟩ := Check.gives_bind gives
      have known := ih onward (distinct_past declares here distinct)
      obtain ⟨rfl, -⟩ := Check.gives_statement declares here
      rwa [← List.singleton_append, declaredIn_append, ← List.append_assoc]

/-! ## Stages -/

/-- Statements that are about to be checked in an environment, with a bound on the
    definitions that may be entered inside one another. -/
structure Stage where
  bound : Nat
  environment : Environment
  statements : List Statement

namespace Stage

variable (functions : List Definition)

/-- The statements of the stage are accepted. -/
def Accepted (stage : Stage) : Prop :=
  ∃ last, Check.Gives (Check.statements (Check.definition functions stage.bound)
    stage.environment stage.statements) last

/-- The walk goes from the first statement of a stage to what follows it, into one of its
    blocks, or into the body of the definition that it is the placeholder of. -/
inductive Leads : Stage → Stage → Prop where
  | next {bound : Nat} {environment next : Environment} {first : Statement}
      {later : List Statement}
      (checked : Check.Gives (Check.statement (Check.definition functions bound) environment first)
        next) :
      Leads ⟨bound, environment, first :: later⟩ ⟨bound, next, later⟩
  | block {bound : Nat} {environment : Environment} {first : Statement} {later : List Statement}
      {counter : Option Token} {body : Block Statement} (isBlock : (counter, body) ∈ first.blocks) :
      Leads ⟨bound, environment, first :: later⟩
        ⟨bound, environment.enter (counterBindings counter), body.statements⟩
  | body {bound index line : Nat} {environment : Environment} {later : List Statement}
      {definition : Definition} (found : functions[index]? = some definition) :
      Leads ⟨bound + 1, environment, .hoisted index line :: later⟩
        ⟨bound,
          (Environment.seeded []
            (environment.declareFunction definition.signature).visibleFunctions).enter
              definition.bindings,
          definition.body.statements⟩

variable {functions}

/-- A walk that succeeds has succeeded at every stage that it comes to. -/
theorem Leads.accepted {stage other : Stage} (leads : Leads functions stage other)
    (accepted : stage.Accepted functions) : other.Accepted functions := by
  obtain ⟨last, gives⟩ := accepted
  cases leads with
  | next checked =>
      rw [Check.statements] at gives
      obtain ⟨middle, here, onward⟩ := Check.gives_bind gives
      have declares := Check.declares_definition functions
      rw [(Check.gives_statement (declares _) here).1,
        ← (Check.gives_statement (declares _) checked).1] at onward
      exact ⟨last, onward⟩
  | block isBlock =>
      rw [Check.statements] at gives
      obtain ⟨middle, here, -⟩ := Check.gives_bind gives
      exact Check.gives_blocks here _ _ isBlock
  | body found =>
      rw [Check.statements] at gives
      obtain ⟨middle, here, -⟩ := Check.gives_bind gives
      rw [Check.statement] at here
      obtain ⟨rest, definition, bounds, isFound, rfl, inside⟩ :=
        Check.gives_definition (Check.gives_step here)
      cases bounds
      obtain rfl := Option.some.inj (found.symm.trans isFound)
      exact inside

/-- If no parameters share a name, a walk never comes to a frame with two variables of one
    name. -/
theorem Leads.distinct {stage other : Stage} (leads : Leads functions stage other)
    (parameters : ∀ definition ∈ functions, Distinct definition.bindings)
    (frames : ∀ frame ∈ stage.environment.frames, Distinct frame.bindings) :
    ∀ frame ∈ other.environment.frames, Distinct frame.bindings := by
  cases leads with
  | next checked =>
      have declares := Check.declares_definition functions
      rw [Environment.frames, List.forall_mem_cons] at frames ⊢
      refine ⟨distinct_past (declares _) checked frames.1, ?_⟩
      obtain ⟨rfl, -⟩ := Check.gives_statement (declares _) checked
      exact frames.2
  | block isBlock => exact List.forall_mem_cons.mpr ⟨distinct_counterBindings _, frames⟩
  | body found =>
      refine List.forall_mem_cons.mpr ⟨parameters _ (List.mem_of_getElem? found), ?_⟩
      exact List.forall_mem_singleton.mpr List.nodup_nil

end Stage

/-- The stage with which static analysis of a program starts. -/
def Program.start (program : Program) : Stage :=
  ⟨program.definitionBound, .seeded [] [], program.body⟩

/-- Static analysis of the program comes to the stage. -/
def Program.Visits (program : Program) (stage : Stage) : Prop :=
  Relation.ReflTransGen (Stage.Leads program.functions) program.start stage

/-- Static analysis of the program comes to the environment. -/
def Program.Reaches (program : Program) (environment : Environment) : Prop :=
  ∃ bound statements, program.Visits ⟨bound, environment, statements⟩

/-! ## Nothing is left out -/

/-- A statement is in the outline of a list exactly if it is in that of one of the statements. The
    induction is on the list. -/
theorem mem_outlineAll {depth : Nat} {statements : List Statement} {entry : Nat × Statement} :
    entry ∈ Statement.outlineAll depth statements ↔
      ∃ statement ∈ statements, entry ∈ statement.outline depth := by
  induction statements with
  | nil => simp [Statement.outlineAll]
  | cons statement statements ih => simp [Statement.outlineAll, ih]

/-- The outline of a block is that of its statements, at the depth of the block. -/
theorem outline_block (depth : Nat) (body : Block Statement) :
    body.outline depth = Statement.outlineAll depth body.statements := by
  obtain ⟨line, statements⟩ := body
  rw [Block.outline]

/-- A statement is in the outline of branches exactly if it is in that of one of their blocks. -/
theorem mem_branchOutline {depth : Nat} {branches : List (Branch Statement)}
    {entry : Nat × Statement} :
    entry ∈ Branch.outlineAll depth branches ↔
      ∃ branch ∈ branches, entry ∈ Statement.outlineAll depth branch.body.statements := by
  induction branches with
  | nil => simp [Branch.outlineAll]
  | cons branch branches ih => simp [Branch.outlineAll, outline_block, ih]

/-- What is listed with a statement is the statement or is listed in one of its blocks. -/
theorem mem_outline {depth : Nat} {statement : Statement} {entry : Nat × Statement}
    (listed : entry ∈ statement.outline depth) :
    entry = (depth, statement) ∨ ∃ counter body, (counter, body) ∈ statement.blocks ∧
      entry ∈ Statement.outlineAll (depth + 1) body.statements := by
  cases statement with
  | forRange keyword counter start stop body =>
      rw [Statement.outline, List.mem_cons, outline_block] at listed
      exact listed.imp_right fun inside =>
        ⟨some counter, body, List.mem_singleton.mpr rfl, inside⟩
  | whileLoop keyword condition body =>
      rw [Statement.outline, List.mem_cons, outline_block] at listed
      exact listed.imp_right fun inside => ⟨none, body, List.mem_singleton.mpr rfl, inside⟩
  | ifChain branches otherwise =>
      have inBranches (inside : entry ∈ Branch.outlineAll (depth + 1) branches) :
          ∃ counter body, (counter, body) ∈ (Statement.ifChain branches otherwise).blocks ∧
            entry ∈ Statement.outlineAll (depth + 1) body.statements := by
        obtain ⟨branch, isBranch, inside⟩ := mem_branchOutline.mp inside
        refine ⟨none, branch.body, List.mem_map_of_mem (List.mem_append_left _ ?_), inside⟩
        exact List.mem_map_of_mem isBranch
      cases otherwise with
      | none =>
          rw [Statement.outline, List.append_nil, List.mem_cons] at listed
          exact listed.imp_right inBranches
      | some body =>
          rw [Statement.outline, List.mem_cons, List.mem_append, outline_block] at listed
          refine listed.imp_right fun inside => inside.elim inBranches fun inside => ?_
          refine ⟨none, body, List.mem_map_of_mem (List.mem_append_right _ ?_), inside⟩
          exact List.mem_singleton.mpr rfl
  | _ => exact .inl (by simpa [Statement.outline] using listed)

/-- Only a placeholder has an index and a line, and it has those that it is found with. -/
theorem placeholder?_eq_some {statement : Statement} {index line : Nat}
    (isHoisted : statement.placeholder? = some (index, line)) :
    statement = .hoisted index line := by
  cases statement <;> cases isHoisted
  rfl

namespace Program

variable {program : Program}

/-- If a program is accepted, every stage that its analysis comes to is, by induction on the steps
    of the walk. -/
theorem Visits.accepted {stage : Stage} (visits : program.Visits stage)
    (accepted : program.start.Accepted program.functions) : stage.Accepted program.functions := by
  induction visits with
  | refl => exact accepted
  | tail _ leads ih => exact leads.accepted ih

/-- If no function has two parameters of one name, the names in every frame that the walk comes to
    are different. Each step keeps this. -/
theorem Visits.distinct {stage : Stage} (visits : program.Visits stage)
    (parameters : ∀ definition ∈ program.functions, Distinct definition.bindings) :
    ∀ frame ∈ stage.environment.frames, Distinct frame.bindings := by
  induction visits with
  | refl => exact List.forall_mem_singleton.mpr List.nodup_nil
  | tail _ leads ih => exact leads.distinct parameters ih

variable (accepted : program.start.Accepted program.functions)

include accepted

/-- A walk that succeeds comes to each statement of a list, by induction on the statements before
    it. -/
theorem Visits.along {bound : Nat} {environment : Environment} {earlier later : List Statement}
    {statement : Statement}
    (visits : program.Visits ⟨bound, environment, earlier ++ statement :: later⟩) :
    ∃ environment, program.Visits ⟨bound, environment, statement :: later⟩ := by
  induction earlier generalizing environment with
  | nil => exact ⟨environment, visits⟩
  | cons first earlier ih =>
      obtain ⟨last, gives⟩ := visits.accepted accepted
      rw [List.cons_append, Check.statements] at gives
      obtain ⟨next, here, -⟩ := Check.gives_bind gives
      exact ih (visits.tail (.next here))

/-- A walk that succeeds comes to everything inside a statement, as far as its outline goes. Bodies
    of functions are not in it. -/
theorem Visits.inside {bound number : Nat} {environment : Environment} {statement : Statement}
    {later : List Statement} (parsed : statement.Parsed number)
    (visits : program.Visits ⟨bound, environment, statement :: later⟩) {depth : Nat}
    {entry : Nat × Statement} (listed : entry ∈ statement.outline depth) :
    ∃ bound environment later, program.Visits ⟨bound, environment, entry.2 :: later⟩ := by
  induction parsed generalizing bound environment later depth with
  | intro statement values below inner ih =>
      rcases mem_outline listed with rfl | ⟨counter, body, isBlock, listed⟩
      · exact ⟨bound, environment, later, visits⟩
      · obtain ⟨found, isStatement, listed⟩ := mem_outlineAll.mp listed
        obtain ⟨before, after, split⟩ := List.append_of_mem isStatement
        have entered := visits.tail (.block isBlock)
        rw [split] at entered
        obtain ⟨_, here⟩ := Visits.along accepted entered
        exact ih counter body isBlock found isStatement here listed

/-- A walk that comes to a list of statements and succeeds comes to everything inside them, as far
    as their outlines go. -/
theorem Visits.throughout {bound number : Nat} {environment : Environment}
    {statements : List Statement} (parsed : ∀ statement ∈ statements, statement.Parsed number)
    (visits : program.Visits ⟨bound, environment, statements⟩) {depth : Nat}
    {entry : Nat × Statement} (listed : entry ∈ Statement.outlineAll depth statements) :
    ∃ bound environment later, program.Visits ⟨bound, environment, entry.2 :: later⟩ := by
  obtain ⟨statement, isStatement, inside⟩ := mem_outlineAll.mp listed
  obtain ⟨before, after, split⟩ := List.append_of_mem isStatement
  rw [split] at visits
  obtain ⟨_, here⟩ := Visits.along accepted visits
  exact Visits.inside accepted (parsed statement isStatement) here inside

/-- A walk that succeeds goes from a placeholder into the body of its definition, which
    starts out with the parameters. -/
theorem Visits.body {bound index line : Nat} {environment : Environment}
    {later : List Statement} {definition : Definition}
    (visits : program.Visits ⟨bound, environment, .hoisted index line :: later⟩)
    (found : program.functions[index]? = some definition) :
    ∃ bound environment, program.Visits ⟨bound, environment, definition.body.statements⟩ ∧
      environment.innermost.bindings = definition.bindings := by
  obtain ⟨last, gives⟩ := visits.accepted accepted
  rw [Check.statements] at gives
  obtain ⟨next, here, -⟩ := Check.gives_bind gives
  rw [Check.statement] at here
  obtain ⟨rest, _, rfl, -⟩ := Check.gives_definition (Check.gives_step here)
  exact ⟨_, _, visits.tail (.body found), rfl⟩

/-- A walk that succeeds enters the body of every function. A placeholder that stands in
    another body stands in one with a greater number, so the induction goes down from the
    last function. -/
theorem visits_functions {tokens : List Token} (derived : Grammar.ProgramOf tokens program)
    {index : Nat} {definition : Definition}
    (found : program.functions[index]? = some definition) :
    ∃ bound environment, program.Visits ⟨bound, environment, definition.body.statements⟩ ∧
      environment.innermost.bindings = definition.bindings := by
  obtain ⟨bodyParsed, bodies⟩ := Grammar.program_parsed derived
  obtain ⟨once, -, before⟩ := program_hoisted derived
  induction left : program.functions.length - index using Nat.strongRecOn
    generalizing index definition with
  | ind left ih =>
      have isFunction := (List.getElem?_eq_some_iff.mp found).1
      obtain ⟨⟨_, line⟩, isPlaceholder, rfl⟩ :=
        List.mem_map.mp (once.mem_iff.mpr (List.mem_range.mpr isFunction))
      obtain ⟨⟨depth, statement⟩, listed, isHoisted⟩ := List.mem_filterMap.mp isPlaceholder
      obtain rfl := placeholder?_eq_some isHoisted
      rcases List.mem_append.mp listed with inBody | inFunction
      · obtain ⟨_, _, _, visits⟩ := Visits.throughout accepted bodyParsed .refl inBody
        exact Visits.body accepted visits found
      · obtain ⟨outer, isOuter, inside⟩ := List.mem_flatMap.mp inFunction
        obtain ⟨number, isNumber⟩ := List.getElem?_of_mem isOuter
        have below := before number outer isNumber _ (List.mem_filterMap.mpr ⟨_, inside, rfl⟩)
        obtain ⟨_, _, entered, -⟩ := ih (program.functions.length - number) (by omega) isNumber rfl
        rw [outline_block] at inside
        obtain ⟨_, _, _, visits⟩ :=
          Visits.throughout accepted (bodies number outer isNumber) entered inside
        exact Visits.body accepted visits found

/-- A walk that succeeds comes to every statement of the program, those in the bodies of functions
    included, for each of these has a placeholder. -/
theorem visits_outline {tokens : List Token} (derived : Grammar.ProgramOf tokens program)
    {entry : Nat × Statement} (listed : entry ∈ program.outline) :
    ∃ bound environment later, program.Visits ⟨bound, environment, entry.2 :: later⟩ := by
  obtain ⟨bodyParsed, bodies⟩ := Grammar.program_parsed derived
  rcases List.mem_append.mp listed with inBody | inFunction
  · exact Visits.throughout accepted bodyParsed .refl inBody
  · obtain ⟨outer, isOuter, inside⟩ := List.mem_flatMap.mp inFunction
    obtain ⟨number, isNumber⟩ := List.getElem?_of_mem isOuter
    obtain ⟨_, _, entered, -⟩ := visits_functions accepted derived isNumber
    rw [outline_block] at inside
    exact Visits.throughout accepted (bodies number outer isNumber) entered inside

end Program

/-! ## Sources -/

/-- The program of a source that compiles is accepted from the start. -/
theorem start_accepted {source : List UInt8} {program : Program} {text : String}
    (isParsed : (parsed source).outcome = .ok program)
    (compiled : (compile source).outcome = .ok text) :
    program.start.Accepted program.functions := by
  rcases compile_run isParsed with ⟨accepted, -⟩ | ⟨_, _, -, failed⟩
  · obtain ⟨after, run⟩ := (Traced.outcome_ok_iff _ _).mp accepted
    obtain ⟨last, between, walked, -⟩ := Traced.bind_ok_iff.mp run
    exact ⟨last, _, _, between, walked⟩
  · rw [failed] at compiled
    cases compiled

/-- In a source that compiles no block binds a name twice, except that the body of a function
    does if the function has two parameters of one name. Frames of static analysis hold two
    variables of one name for the same reason only. -/
theorem distinct_iff_parameters {source : List UInt8} {program : Program} {text : String}
    (isParsed : (parsed source).outcome = .ok program)
    (compiled : (compile source).outcome = .ok text) :
    (∀ scope ∈ program.scopes, Distinct scope) ∧
      (∀ definition ∈ program.functions,
        Distinct definition.scope ↔ Distinct definition.bindings) ∧
      ((∀ environment, program.Reaches environment →
          ∀ frame ∈ environment.frames, Distinct frame.bindings) ↔
        ∀ definition ∈ program.functions, Distinct definition.bindings) := by
  have accepted := start_accepted isParsed compiled
  obtain ⟨tokens, layout, -, -, derived⟩ := (parsed_ok_iff source program).mp isParsed
  have declares := Check.declares_definition program.functions
  refine ⟨List.forall_mem_cons.mpr ⟨?_, ?_⟩, fun definition isFunction => ?_, ?_, ?_⟩
  · obtain ⟨last, gives⟩ := accepted
    exact (distinct_statements (declares _) gives).mpr List.nodup_nil
  · rw [List.forall_mem_map]
    rintro ⟨counter, body⟩ isBlock
    obtain ⟨entry, listed, isBlock⟩ := List.mem_flatMap.mp isBlock
    obtain ⟨_, _, _, visits⟩ := Program.visits_outline accepted derived listed
    obtain ⟨last, gives⟩ := Program.Visits.accepted (visits.tail (.block isBlock)) accepted
    exact (distinct_statements (declares _) gives).mpr (distinct_counterBindings counter)
  · obtain ⟨index, found⟩ := List.getElem?_of_mem isFunction
    obtain ⟨_, environment, visits, same⟩ := Program.visits_functions accepted derived found
    obtain ⟨last, gives⟩ := visits.accepted accepted
    rw [Definition.scope, ← same]
    exact distinct_statements (declares _) gives
  · intro frames definition isFunction
    obtain ⟨index, found⟩ := List.getElem?_of_mem isFunction
    obtain ⟨_, environment, visits, same⟩ := Program.visits_functions accepted derived found
    rw [← same]
    exact frames environment ⟨_, _, visits⟩ _ List.mem_cons_self
  · rintro parameters environment ⟨_, _, visits⟩
    exact visits.distinct parameters

/-- A function with a parameter and a declaration in its body, and a loop whose counter is declared
    nowhere else. -/
theorem distinct_iff_parameters_loop :
    let source := Utf8.encode
      "import GoType\ndef f(a: int):\n    b: any = print(a)\nfor i in range(0, 2):\n    f(i)\n"
    ∃ program text, (parsed source).outcome = .ok program ∧
      (compile source).outcome = .ok text ∧
        program.scopes = [[], [⟨"i", "int"⟩]] ∧
        program.functions.map Definition.scope = [[⟨"a", "int"⟩, ⟨"b", "any"⟩]] ∧
        (∀ scope ∈ program.scopes, Distinct scope) ∧
        (∀ definition ∈ program.functions, Distinct definition.scope) ∧
        ∀ environment, program.Reaches environment →
          ∀ frame ∈ environment.frames, Distinct frame.bindings := by
  intro source
  let word (kind : Kind) (lexeme : String) (line : Nat) : Token := ⟨kind, lexeme, line⟩
  let name (lexeme : String) (line : Nat) : Token := word .identifier lexeme line
  let tokens : List Token :=
    [word .importWord "import" 1, name "GoType" 1, .newline 1,
      word .defWord "def" 2, name "f" 2, word .leftParen "(" 2, name "a" 2, word .colon ":" 2,
      name "int" 2, word .rightParen ")" 2, word .colon ":" 2, .newline 2,
      .indent 3, name "b" 3, word .colon ":" 3, name "any" 3, word .assign "=" 3,
      word .print "print" 3, word .leftParen "(" 3, name "a" 3, word .rightParen ")" 3, .newline 3,
      word .forWord "for" 4, name "i" 4, word .inWord "in" 4, word .range "range" 4,
      word .leftParen "(" 4, word .intLiteral "0" 4, word .comma "," 4, word .intLiteral "2" 4,
      word .rightParen ")" 4, word .colon ":" 4, .newline 4,
      .indent 5, name "f" 5, word .leftParen "(" 5, name "i" 5, word .rightParen ")" 5, .newline 5]
  let program : Program :=
    ⟨⟨name "GoType" 1, none, 1⟩,
      [.hoisted 0 2,
        .forRange (word .forWord "for" 4) (name "i" 4) (word .intLiteral "0" 4)
          (word .intLiteral "2" 4) ⟨4, [.call (name "f" 5) [.terminal (name "i" 5)]]⟩],
      [⟨word .defWord "def" 2, name "f" 2, [⟨name "a" 2, name "int" 2⟩], none,
        ⟨2, [.declaration (name "b" 3) (name "any" 3)
          (.call (word .print "print" 3) [.terminal (name "a" 3)])]⟩⟩]⟩
  have scanned : Token.scan source = .ok tokens := by
    dsimp only [source, tokens, name, word]
    cbv
  obtain ⟨layout, laid⟩ : ∃ layout, Layout.ofTokens tokens = .ok layout := ⟨_, rfl⟩
  have isProgram : (Program.parse layout.tokens).outcome = .ok program := by
    cases laid
    dsimp only [tokens, program, name, word]
    cbv
  have accepted : (program.analyze [] []).outcome = .ok () := rfl
  have isParsed := parsed_of_phases scanned laid isProgram
  obtain ⟨-, compiled⟩ | ⟨_, _, rejected, -⟩ := compile_run isParsed
  · obtain ⟨scopes, bodies, frames⟩ := distinct_iff_parameters isParsed compiled
    have parameters : ∀ definition ∈ program.functions, Distinct definition.bindings := by decide
    exact ⟨program, _, isParsed, compiled, rfl, rfl, scopes,
      fun definition isFunction => (bodies definition isFunction).mpr
        (parameters definition isFunction), frames.mpr parameters⟩
  · rw [accepted] at rejected
    cases rejected

/-- A function with two parameters of one name compiles, and the frame of its body holds
    both. -/
theorem not_distinct_parameters :
    let source := Utf8.encode "from GoType import *\ndef f(a: int, a: int):\n    print(a)\n"
    ∃ program text, (parsed source).outcome = .ok program ∧
      (compile source).outcome = .ok text ∧
        program.functions.map Definition.scope = [[⟨"a", "int"⟩, ⟨"a", "int"⟩]] ∧
        (∃ definition ∈ program.functions, ¬ Distinct definition.scope) ∧
        ∃ environment, program.Reaches environment ∧
          ∃ frame ∈ environment.frames, ¬ Distinct frame.bindings := by
  intro source
  let word (kind : Kind) (lexeme : String) (line : Nat) : Token := ⟨kind, lexeme, line⟩
  let name (lexeme : String) (line : Nat) : Token := word .identifier lexeme line
  let tokens : List Token :=
    [word .fromWord "from" 1, name "GoType" 1, word .importWord "import" 1, word .star "*" 1,
      .newline 1,
      word .defWord "def" 2, name "f" 2, word .leftParen "(" 2, name "a" 2, word .colon ":" 2,
      name "int" 2, word .comma "," 2, name "a" 2, word .colon ":" 2, name "int" 2,
      word .rightParen ")" 2, word .colon ":" 2, .newline 2,
      .indent 3, word .print "print" 3, word .leftParen "(" 3, name "a" 3,
      word .rightParen ")" 3, .newline 3]
  let definition : Definition :=
    ⟨word .defWord "def" 2, name "f" 2,
      [⟨name "a" 2, name "int" 2⟩, ⟨name "a" 2, name "int" 2⟩], none,
      ⟨2, [.call (word .print "print" 3) [.terminal (name "a" 3)]]⟩⟩
  let program : Program :=
    ⟨⟨name "GoType" 1, some (word .star "*" 1), 1⟩, [.hoisted 0 2], [definition]⟩
  have scanned : Token.scan source = .ok tokens := by
    dsimp only [source, tokens, name, word]
    cbv
  obtain ⟨layout, laid⟩ : ∃ layout, Layout.ofTokens tokens = .ok layout := ⟨_, rfl⟩
  have isProgram : (Program.parse layout.tokens).outcome = .ok program := by
    cases laid
    dsimp only [tokens, program, definition, name, word]
    cbv
  have accepted : (program.analyze [] []).outcome = .ok () := rfl
  have isParsed := parsed_of_phases scanned laid isProgram
  have entered : Stage.Leads program.functions program.start _ :=
    .body (rfl : program.functions[0]? = some definition)
  obtain ⟨-, compiled⟩ | ⟨_, _, rejected, -⟩ := compile_run isParsed
  · exact ⟨program, _, isParsed, compiled, rfl, ⟨definition, List.mem_cons_self, by decide⟩,
      _, ⟨_, _, .single entered⟩, _, List.mem_cons_self, by decide⟩
  · rw [accepted] at rejected
    cases rejected

end Offside
