import Mathlib.Data.List.Forall2
import Offside.Proofs.Go.Rows
import Offside.Proofs.Syntax.Form

/-!
# Trees of one form in Go

Trees of one form whose leaves are spelled alike have the same rows. Neither keywords nor
the numbers of functions are written, so placeholders may be related in any way.
-/

namespace Offside

open Grammar Go

/-- The rows of a chain. `opening` stands before the condition of its first branch. -/
def chainRows (depth : Nat) (opening : List Part) (branches : List (Branch Statement))
    (otherwise : Option (Block Statement)) : List Row :=
  Branch.rowsAll depth opening branches ++
    ((match otherwise with
      | none => []
      | some body =>
          .header depth [.mark "\x7d", .gap, .word "else"] :: Block.rows (depth + 1) body) ++
      [.close depth])

/-- A chain has the rows of its branches and its `else`, and the first branch opens with the word
    for a chain alone. -/
theorem rows_ifChain (depth : Nat) (branches : List (Branch Statement))
    (otherwise : Option (Block Statement)) :
    (Statement.ifChain branches otherwise).rows depth =
      chainRows depth [.word "if"] branches otherwise := by
  cases otherwise <;> simp [Statement.rows, chainRows]

/-- The rows of a chain are the header of its first branch, the rows of that block, and those of the
    other branches, which open differently. -/
theorem chainRows_cons (depth : Nat) (opening : List Part) (branch : Branch Statement)
    (branches : List (Branch Statement)) (otherwise : Option (Block Statement)) :
    chainRows depth opening (branch :: branches) otherwise =
      .header depth (opening ++ .gap :: branch.condition.parts) ::
        (Block.rows (depth + 1) branch.body ++ chainRows depth elseIf branches otherwise) := by
  simp [chainRows, Branch.rowsAll]

/-- The rows of a phrase. `opening` stands before the first condition of a chain. -/
def Grammar.Phrase.rows (depth : Nat) (opening : List Part) : Phrase → List Row
  | .block body => body.rows depth
  | .continuation branches otherwise => chainRows depth opening branches otherwise
  | .compound statement => statement.rows depth
  | .statements list => Statement.rowsAll depth list

/-- Related tokens have one spelling. -/
def SpelledAlike (leaf : Token → Token → Prop) : Prop :=
  ∀ {token other}, leaf token other → spelling token = spelling other

variable {leaf : Token → Token → Prop} {placed : Nat → Nat → Nat → Nat → Prop}
  {colon : Nat → Nat → Prop}

/-- Tokens that are spelled alike make the same word, for a word shows nothing but the spelling of
    its token. -/
theorem word_eq (spelled : SpelledAlike leaf) {token other : Token} (matched : leaf token other) :
    token.asWord = other.asWord :=
  congrArg Part.word (spelled matched)

/-- Tokens that are spelled alike make the same mark, for a mark shows nothing but the spelling of
    its token. -/
theorem mark_eq (spelled : SpelledAlike leaf) {token other : Token} (matched : leaf token other) :
    token.asMark = other.asMark :=
  congrArg Part.mark (spelled matched)

mutual

/-- Values whose leaves are spelled alike have the same parts. The recursion is on the relation
    between the two values. -/
theorem Value.Related.parts_eq (spelled : SpelledAlike leaf) {value other : Value} :
    value.Related leaf other → value.parts = other.parts
  | .terminal matched => by simp only [Value.parts, word_eq spelled matched]
  | .call name inside => by
      simp only [Value.parts, word_eq spelled name, partsAll_related spelled inside]

/-- Lists of values whose leaves are spelled alike have the same parts, value by value. The
    recursion through calls needs this with the values themselves. -/
theorem partsAll_related (spelled : SpelledAlike leaf) {values others : List Value} :
    List.Forall₂ (Value.Related leaf) values others →
      Value.partsAll values = Value.partsAll others
  | .nil => rfl
  | .cons first later => by
      simp only [Value.partsAll, first.parts_eq spelled, partsAll_related spelled later]

end

section

variable (spelled : SpelledAlike leaf)
include spelled

/-- Expressions whose leaves are spelled alike have the same parts, with an operator or without
    one. -/
theorem Expression.Related.parts_eq {expression other : Expression}
    (related : expression.Related leaf other) : expression.parts = other.parts := by
  obtain ⟨left, tail⟩ := expression
  obtain ⟨otherLeft, otherTail⟩ := other
  obtain ⟨lefts, tails⟩ := related
  cases tails with
  | none => simp only [Expression.parts, word_eq spelled lefts]
  | some same =>
      simp only [Expression.parts, word_eq spelled lefts, mark_eq spelled same.1,
        word_eq spelled same.2]

/-- Conditions whose leaves are spelled alike have the same parts, with a comparator or without
    one. -/
theorem Comparison.Related.parts_eq {condition other : Comparison}
    (related : condition.Related leaf other) : condition.parts = other.parts := by
  obtain ⟨left, tail⟩ := condition
  obtain ⟨otherLeft, otherTail⟩ := other
  obtain ⟨lefts, tails⟩ := related
  cases tails with
  | none => exact lefts.parts_eq spelled
  | some same =>
      simp only [Comparison.parts, lefts.parts_eq spelled, mark_eq spelled same.1,
        same.2.parts_eq spelled]

/-- Lists of parameters whose leaves are spelled alike have the same parts, one by one. -/
theorem parameters_related {parameters others : List Parameter}
    (related : List.Forall₂ (Parameter.Related leaf) parameters others) :
    parameters.map Parameter.parts = others.map Parameter.parts := by
  induction related with
  | nil => rfl
  | cons first _ ih =>
      simp only [List.map_cons, Parameter.parts, word_eq spelled first.name,
        word_eq spelled first.type, ih]

/-- Phrases of one form whose leaves are spelled alike have the same rows, at any depth and after
    any opening. The induction is on the relation between them. -/
theorem Grammar.Phrase.Related.rows_eq {phrase other : Phrase}
    (related : phrase.Related leaf placed colon other) (depth : Nat) (opening : List Part) :
    phrase.rows depth opening = other.rows depth opening := by
  induction related generalizing depth opening with
  | block _ _ ih =>
      simp only [Phrase.rows, Block.rows]
      exact ih depth opening
  | chainEnd => rfl
  | otherwise _ ih =>
      have inside := ih (depth + 1) opening
      simp only [Phrase.rows] at inside
      simp only [Phrase.rows, chainRows, Branch.rowsAll, inside]
  | branch _ compared _ _ ih laterIh =>
      have inside := ih (depth + 1) opening
      have later := laterIh depth elseIf
      simp only [Phrase.rows] at inside later
      simp only [Phrase.rows, chainRows_cons, compared.parts_eq spelled, inside, later]
  | forRange _ name low high _ ih =>
      have inside := ih (depth + 1) opening
      simp only [Phrase.rows] at inside
      simp only [Phrase.rows, Statement.rows, word_eq spelled name, word_eq spelled low,
        word_eq spelled high, inside]
  | whileLoop _ compared _ ih =>
      have inside := ih (depth + 1) opening
      simp only [Phrase.rows] at inside
      simp only [Phrase.rows, Statement.rows, compared.parts_eq spelled, inside]
  | ifChain _ ih =>
      simp only [Phrase.rows, rows_ifChain]
      exact ih depth [.word "if"]
  | declaration named typed initial =>
      simp only [Phrase.rows, Statement.rows, word_eq spelled named, word_eq spelled typed,
        initial.parts_eq spelled]
  | manipulation named assigned =>
      simp only [Phrase.rows, Statement.rows, word_eq spelled named, assigned.parts_eq spelled]
  | call called => simp only [Phrase.rows, Statement.rows, called.parts_eq spelled]
  | returnValue _ returned => simp only [Phrase.rows, Statement.rows, word_eq spelled returned]
  | hoisted _ => simp only [Phrase.rows, Statement.rows]
  | nil => rfl
  | cons _ _ ih laterIh =>
      have first := ih depth opening
      have later := laterIh depth opening
      simp only [Phrase.rows] at first later
      simp only [Phrase.rows, Statement.rowsAll, first, later]

/-- Lists of functions whose leaves are spelled alike have the same rows, by induction on the
    lists. -/
theorem definitions_related {definitions others : List Definition}
    (related : List.Forall₂ (Definition.Related leaf placed colon) definitions others) :
    Definition.rowsAll definitions = Definition.rowsAll others := by
  have result {returns others : Option Token} (related : Option.Rel leaf returns others) :
      resultParts returns = resultParts others := by
    cases related with
    | none => rfl
    | some same => simp only [resultParts, word_eq spelled same]
  induction related with
  | nil => rfl
  | cons first _ ih =>
      have body := first.body.rows_eq spelled 1 []
      simp only [Phrase.rows] at body
      simp only [Definition.rowsAll, Definition.rows, word_eq spelled first.name,
        parameters_related spelled first.parameters, result first.returns, body, ih]

/-- Programs of one form whose leaves are spelled alike have the same rows, for both their functions
    and their bodies have. -/
theorem Program.Related.rows_eq {program other : Program}
    (related : program.Related leaf placed colon other) : program.rows = other.rows := by
  have body := related.body.rows_eq spelled 1 []
  simp only [Phrase.rows] at body
  simp only [Program.rows, definitions_related spelled related.functions, body]

end

end Offside
