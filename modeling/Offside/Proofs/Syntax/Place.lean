import Mathlib.Logic.Relation
import Offside.Syntax.Tree

/-!
# Places in a program

A program is read as one tree, with every definition at its placeholder. A place
in this tree is the path that leads to it: the statements before it in its own
list, and the place of the statement whose block or body it stands in. A
statement occurs at a place when the path really leads there from the program's
body.
-/

namespace Offside

/-- The blocks of a statement, each with the counter of the loop that it is the
    body of. -/
def Statement.blocks : Statement → List (Option Token × Block Statement)
  | .forRange _ counter _ _ body => [(some counter, body)]
  | .whileLoop _ _ body => [(none, body)]
  | .ifChain branches otherwise =>
      (branches.map (fun branch => branch.body) ++ otherwise.toList).map fun body => (none, body)
  | _ => []

/-- The blocks of a chain are those of its branches, and the last one if there is
    one. -/
theorem forall_blocks_ifChain {branches : List (Branch Statement)}
    {otherwise : Option (Block Statement)} {holds : Option Token → Block Statement → Prop} :
    (∀ counter body, (counter, body) ∈ (Statement.ifChain branches otherwise).blocks →
        holds counter body) ↔
      (∀ branch ∈ branches, holds none branch.body) ∧ ∀ body ∈ otherwise, holds none body := by
  constructor
  · intro all
    refine ⟨fun branch member => all none branch.body ?_, fun body isLast => all none body ?_⟩
    · simp only [Statement.blocks, List.mem_map, List.mem_append]
      exact ⟨branch.body, Or.inl ⟨branch, member, rfl⟩, rfl⟩
    · simp only [Statement.blocks, List.mem_map, List.mem_append]
      exact ⟨body, Or.inr (Option.mem_toList.mpr isLast), rfl⟩
  · rintro ⟨inBranches, inLast⟩ counter body isBlock
    simp only [Statement.blocks, List.mem_map, List.mem_append, Prod.mk.injEq] at isBlock
    obtain ⟨_, ⟨branch, member, rfl⟩ | isLast, rfl, rfl⟩ := isBlock
    · exact inBranches branch member
    · exact inLast _ (Option.mem_toList.mp isLast)

/-- The path to a statement. `earlier` holds the statements before it in its
    list. -/
inductive Place where
  /-- In the body of the program. -/
  | top (earlier : List Statement)
  /-- In a block of the statement at `outer`. -/
  | inBlock (outer : Place) (counter : Option Token) (earlier : List Statement)
  /-- In the body of the definition whose placeholder is at `outer`. -/
  | inBody (outer : Place) (definition : Definition) (earlier : List Statement)

namespace Place

/-- The number of blocks around a place, bodies of functions included. -/
def depth : Place → Nat
  | top _ => 0
  | inBlock outer _ _ => outer.depth + 1
  | inBody outer _ _ => outer.depth + 1

/-- Whether a function body is around a place. -/
def inFunction : Place → Bool
  | top _ => false
  | inBlock outer _ _ => outer.inFunction
  | inBody _ _ _ => true

/-- The place in the same list after more statements. -/
def after : Place → List Statement → Place
  | top earlier, more => top (earlier ++ more)
  | inBlock outer counter earlier, more => inBlock outer counter (earlier ++ more)
  | inBody outer definition earlier, more => inBody outer definition (earlier ++ more)

/-- The place after no more statements is the same place. -/
@[simp]
theorem after_nil (place : Place) : place.after [] = place := by
  cases place <;> simp [after]

/-- The place after some statements and then some more is the place after all of them. -/
@[simp]
theorem after_after (place : Place) (first second : List Statement) :
    (place.after first).after second = place.after (first ++ second) := by
  cases place <;> simp [after]

/-- Whether a place is in a function does not depend on the statements before it in its own list. -/
@[simp]
theorem inFunction_after (place : Place) (more : List Statement) :
    (place.after more).inFunction = place.inFunction := by
  cases place <;> rfl

end Place

/-- A statement at its place directly contains the statements of its blocks, and a
    placeholder those of the body of its definition. -/
inductive Contains (functions : List Definition) :
    Place × Statement → Place × Statement → Prop where
  | block (place : Place) (statement : Statement) (counter : Option Token)
      (body : Block Statement) (earlier later : List Statement) (inner : Statement)
      (isBlock : (counter, body) ∈ statement.blocks)
      (split : body.statements = earlier ++ inner :: later) :
      Contains functions (place, statement) (.inBlock place counter earlier, inner)
  | body (place : Place) (index line : Nat) (definition : Definition)
      (earlier later : List Statement) (inner : Statement)
      (found : functions[index]? = some definition)
      (split : definition.body.statements = earlier ++ inner :: later) :
      Contains functions (place, .hoisted index line) (.inBody place definition earlier, inner)

/-- The statement occurs at the place. -/
def Program.Occurs (program : Program) (place : Place) (statement : Statement) : Prop :=
  ∃ earlier first later, program.body = earlier ++ first :: later ∧
    Relation.ReflTransGen (Contains program.functions) (.top earlier, first) (place, statement)

/-- The property holds of a statement at its place and of everything inside it. -/
def Throughout (functions : List Definition) (holds : Place → Statement → Prop) (place : Place)
    (statement : Statement) : Prop :=
  ∀ inner : Place × Statement,
    Relation.ReflTransGen (Contains functions) (place, statement) inner → holds inner.1 inner.2

/-- Throughout a statement is at the statement itself and throughout what it
    directly contains. -/
theorem throughout_iff {functions : List Definition} {holds : Place → Statement → Prop}
    {place : Place} {statement : Statement} :
    Throughout functions holds place statement ↔
      holds place statement ∧
        ∀ inner, Contains functions (place, statement) inner →
          Throughout functions holds inner.1 inner.2 := by
  constructor
  · intro everywhere
    refine ⟨everywhere (place, statement) .refl, ?_⟩
    intro inner contained found reached
    exact everywhere found (.head contained reached)
  · rintro ⟨here, inside⟩ found reached
    rcases Relation.ReflTransGen.cases_head reached with rfl | ⟨inner, contained, onward⟩
    · exact here
    · exact inside inner contained found onward

/-- The property holds throughout every statement of a list, the first of which
    stands at `place`. -/
def ThroughoutAll (functions : List Definition) (holds : Place → Statement → Prop) (place : Place)
    (statements : List Statement) : Prop :=
  ∀ earlier statement later, statements = earlier ++ statement :: later →
    Throughout functions holds (place.after earlier) statement

/-- Every property holds throughout a list without statements. -/
theorem throughoutAll_nil {functions : List Definition} {holds : Place → Statement → Prop}
    {place : Place} : ThroughoutAll functions holds place [] := by
  intro earlier statement later split
  simp at split

/-- A property holds throughout a list exactly when it does throughout the first statement at its
    place and throughout the others at the places behind it. -/
theorem throughoutAll_cons {functions : List Definition} {holds : Place → Statement → Prop}
    {place : Place} {statement : Statement} {statements : List Statement} :
    ThroughoutAll functions holds place (statement :: statements) ↔
      Throughout functions holds place statement ∧
        ThroughoutAll functions holds (place.after [statement]) statements := by
  constructor
  · intro everywhere
    constructor
    · simpa using everywhere [] statement statements rfl
    · rintro earlier found later rfl
      simpa using everywhere (statement :: earlier) found later rfl
  · rintro ⟨here, onward⟩ earlier found later split
    cases earlier with
    | nil =>
        simp only [List.nil_append, List.cons.injEq] at split
        obtain ⟨rfl, rfl⟩ := split
        simpa using here
    | cons first earlier =>
        simp only [List.cons_append, List.cons.injEq] at split
        obtain ⟨rfl, rfl⟩ := split
        simpa using onward earlier found later rfl

/-- Throughout a statement that is no placeholder: at the statement, and in each of
    its blocks. -/
theorem throughout_blocks_iff {functions : List Definition} {holds : Place → Statement → Prop}
    {place : Place} {statement : Statement}
    (noDefinition : ∀ index line, statement ≠ .hoisted index line) :
    Throughout functions holds place statement ↔
      holds place statement ∧
        ∀ counter body, (counter, body) ∈ statement.blocks →
          ThroughoutAll functions holds (.inBlock place counter []) body.statements := by
  rw [throughout_iff]
  refine and_congr_right fun _ => ⟨?_, ?_⟩
  · intro inside counter body isBlock earlier inner later split
    exact inside _ (.block place statement counter body earlier later inner isBlock split)
  · intro inside inner contained
    cases contained with
    | block _ _ counter body earlier later inner isBlock split =>
        exact inside counter body isBlock earlier inner later split
    | body _ index line => exact absurd rfl (noDefinition index line)

/-- Throughout a placeholder: at the placeholder, and in the body of its
    definition. -/
theorem throughout_hoisted_iff {functions : List Definition} {holds : Place → Statement → Prop}
    {place : Place} {index line : Nat} {definition : Definition}
    (found : functions[index]? = some definition) :
    Throughout functions holds place (.hoisted index line) ↔
      holds place (.hoisted index line) ∧
        ThroughoutAll functions holds (.inBody place definition [])
          definition.body.statements := by
  rw [throughout_iff]
  refine and_congr_right fun _ => ⟨?_, ?_⟩
  · intro inside earlier inner later split
    exact inside _ (.body place index line definition earlier later inner found split)
  · intro inside inner contained
    cases contained with
    | block _ _ counter body earlier later inner isBlock split => simp [Statement.blocks] at isBlock
    | body _ _ _ other earlier later inner isFound split =>
        obtain rfl : definition = other := Option.some.inj (found.symm.trans isFound)
        exact inside earlier inner later split

/-- The property holds wherever a statement occurs exactly when it holds throughout
    the body. -/
theorem occurs_iff {program : Program} {holds : Place → Statement → Prop} :
    (∀ place statement, program.Occurs place statement → holds place statement) ↔
      ThroughoutAll program.functions holds (.top []) program.body := by
  constructor
  · intro everywhere earlier statement later split inner reached
    exact everywhere inner.1 inner.2 ⟨earlier, statement, later, split, reached⟩
  · rintro throughout place statement ⟨earlier, first, later, split, reached⟩
    exact throughout earlier first later split (place, statement) reached

end Offside
