import Mathlib.Data.List.Forall2
import Offside.Proofs.Syntax.Derivation
import Offside.Proofs.Typing.Scope

/-!
# The rules of static analysis

What makes a program well-scoped and well-typed, said for one statement at its
place. Every rule asks only for the names that are visible there; no rule depends
on whether another one holds, or on the order in which they are checked.

Values have types by derivation. A call has the result type of the function that
its callee stands for, when there is one argument for each parameter and each of
them fits; what is printed may have any type.
-/

namespace Offside

/-- A value of this type may be bound to the expected type: the types have one name,
    anything is expected, or a written number meets a numeric type. -/
def StaticType.Compatible (actual : StaticType) (expected : TypeName) : Prop :=
  actual.name = expected ∨ expected = .any ∨
    actual = .intLiteral ∧ expected ∈ TypeName.integerFamily

/-- Comparing a type with the expected one succeeds exactly if a value of it may be bound there. -/
theorem StaticType.compatibility_isOk (actual : StaticType) (expected : TypeName) :
    (actual.compatibility expected).isOk = true ↔ actual.Compatible expected := by
  unfold StaticType.compatibility StaticType.Compatible TypeName.isIntegerFamily
  rw [← List.contains_iff_mem]
  split
  · rename_i same
    simp [same, Compatibility.isOk]
  · rename_i different
    split
    · rename_i isAny
      simp [isAny, Compatibility.isOk]
    · rename_i notAny
      split
      · rename_i number
        simp only [Compatibility.isOk, true_iff]
        exact Or.inr (Or.inr number)
      · rename_i notNumber
        simp only [Compatibility.isOk, Bool.false_eq_true, false_iff]
        rintro (same | isAny | number)
        · exact different same
        · exact notAny isAny
        · exact notNumber number

namespace Place

variable (setting : Setting)

/-- The value has the type at the place. -/
inductive HasType (place : Place) : Value → StaticType → Prop where
  | number (token : Token) (isNumber : token.kind = .intLiteral) :
      HasType place (.terminal token) .intLiteral
  | string (token : Token) (isString : token.kind = .stringLiteral) :
      HasType place (.terminal token) (.named .string)
  | bool (token : Token) (isBool : token.kind = .boolLiteral) :
      HasType place (.terminal token) (.named .bool)
  | null (token : Token) (isNull : token.kind = .nullLiteral) :
      HasType place (.terminal token) (.named .null)
  | name (token : Token) (binding : Binding) (isName : token.kind = .identifier)
      (found : place.binding? setting token.lexeme = some binding) :
      HasType place (.terminal token) (.named binding.type)
  /-- One argument of any type is printed. -/
  | print (callee : Token) (argument : Value) (actual : StaticType)
      (isPrint : callee.kind = .print) (typed : HasType place argument actual) :
      HasType place (.call callee [argument]) (.named .null)
  | call (callee : Token) (signature : Signature) (arguments : List (Value × StaticType))
      (isName : callee.kind = .identifier)
      (found : place.signature? setting callee.lexeme = some signature)
      (typed : ∀ argument ∈ arguments, HasType place argument.1 argument.2)
      (fits : List.Forall₂ StaticType.Compatible (arguments.map Prod.snd) signature.parameters) :
      HasType place (.call callee (arguments.map Prod.fst)) (.named signature.returns)

/-- A token that is a name stands for a visible variable. -/
def Known (place : Place) (token : Token) : Prop :=
  token.kind = .identifier → ∃ binding, place.binding? setting token.lexeme = some binding

/-- The rules for a statement at a place. What stands inside its blocks has places of
    its own. -/
def Obeys (place : Place) : Statement → Prop
  | .declaration name type value =>
      (∀ binding ∈ place.own setting, binding.name ≠ name.lexeme) ∧
        ∃ actual, place.HasType setting value actual ∧ actual.Compatible type.lexeme
  | .manipulation target value =>
      (∃ binding, place.binding? setting target.lexeme = some binding) ∧
        ∀ operand ∈ value.operands, place.Known setting operand
  | .call callee arguments => ∃ result, place.HasType setting (.call callee arguments) result
  | .forRange _ _ start stop _ => place.Known setting start ∧ place.Known setting stop
  | .whileLoop _ condition _ =>
      ∀ expression ∈ condition.expressions, ∀ operand ∈ expression.operands,
        place.Known setting operand
  | .ifChain branches _ =>
      ∀ branch ∈ branches, ∀ expression ∈ branch.condition.expressions,
        ∀ operand ∈ expression.operands, place.Known setting operand
  | .returnValue _ value => place.inFunction = true ∧ place.Known setting value
  | .hoisted _ _ => True

end Place

/-! ## What parsing promises

Rules are stated for trees that come from parsing: operands are names or literals,
what is called is a name or `print`, and a definition contains only definitions
that come before it in the list of functions. -/

/-- The leaves of a value are operands and callees. -/
inductive Value.Parsed : Value → Prop where
  | terminal (token : Token) (isOperand : Grammar.Operand token) : Parsed (.terminal token)
  | call (callee : Token) (arguments : List Value) (isCallee : Grammar.Callee callee)
      (parsed : ∀ argument ∈ arguments, Parsed argument) :
      Parsed (.call callee arguments)

/-- The values of a statement, what stands inside its blocks apart. -/
def Statement.values : Statement → List Value
  | .declaration _ _ value => [value]
  | .call callee arguments => [.call callee arguments]
  | _ => []

/-- The values of a statement are those of parsed trees, and so is everything in its
    blocks; placeholders are of functions before `bound`. -/
inductive Statement.Parsed (bound : Nat) : Statement → Prop where
  | intro (statement : Statement) (values : ∀ value ∈ statement.values, value.Parsed)
      (below : ∀ index line, statement = .hoisted index line → index < bound)
      (inside : ∀ counter body, (counter, body) ∈ statement.blocks →
        ∀ inner ∈ body.statements, Parsed bound inner) :
      Parsed bound statement

/-- In the bodies of functions, placeholders are of functions before them. The first
    of the functions has the number `first`. -/
def BodiesParsed (first : Nat) (functions : List Definition) : Prop :=
  ∀ (index : Nat) (definition : Definition), functions[index]? = some definition →
    ∀ statement ∈ definition.body.statements, statement.Parsed (first + index)

/-- A statement whose placeholders are of functions before a bound has them before every higher
    bound. The induction goes through its blocks. -/
theorem Statement.Parsed.raise {bound higher : Nat} {statement : Statement}
    (parsed : statement.Parsed bound) (le : bound ≤ higher) : statement.Parsed higher := by
  induction parsed with
  | intro statement values below inside ih =>
      refine .intro statement values ?_ ih
      intro index line isHoisted
      exact Nat.lt_of_lt_of_le (below index line isHoisted) le

namespace Grammar

/-- The leaves of a derived argument are operands and callees, by induction on the derivation. -/
theorem argument_parsed {tokens : List Token} {value : Value} (derived : ArgumentOf tokens value) :
    value.Parsed := by
  induction derived with
  | operand token isOperand => exact .terminal token isOperand
  | call callee left right parts inner isCallee opens closes listed derived ih =>
      refine .call callee _ isCallee ?_
      intro argument isArgument
      obtain ⟨part, isPart, rfl⟩ := List.mem_map.mp isArgument
      exact ih part isPart

/-- A derived statement on one line has parsed values and no placeholders, so any bound will do. -/
theorem simple_parsed {tokens : List Token} {statement : Statement}
    (derived : SimpleOf tokens statement) (bound : Nat) : statement.Parsed bound := by
  cases derived with
  | declaration name colon type assign tokens value isName isColon isType isAssign initial =>
      have parsed : value.Parsed := by
        cases initial with
        | call tokens callee arguments derived => exact argument_parsed derived
        | literal token isLiteral => exact .terminal token (Or.inr isLiteral)
      exact .intro _ (by simpa [Statement.values] using parsed) (by simp)
        (by simp [Statement.blocks])
  | manipulation =>
      exact .intro _ (by simp [Statement.values]) (by simp) (by simp [Statement.blocks])
  | call tokens callee arguments derived =>
      exact .intro _ (by simpa [Statement.values] using argument_parsed derived) (by simp)
        (by simp [Statement.blocks])
  | returnValue =>
      exact .intro _ (by simp [Statement.values]) (by simp) (by simp [Statement.blocks])

/-- The statements that directly belong to a phrase. -/
def Phrase.parts : Phrase → List Statement
  | .block body => body.statements
  | .continuation branches otherwise =>
      (branches.map (fun branch => branch.body) ++ otherwise.toList).flatMap Block.statements
  | .compound statement => [statement]
  | .statements list => list

/-- A statement that ends with a block, and has only blocks inside, is parsed if
    everything in them is. -/
theorem blocks_parsed {bound : Nat} {statement : Statement} (noValues : statement.values = [])
    (noDefinition : ∀ index line, statement ≠ .hoisted index line)
    (inside : ∀ entry ∈ statement.blocks, ∀ inner ∈ entry.2.statements, inner.Parsed bound) :
    statement.Parsed bound := by
  refine .intro statement (by simp [noValues]) ?_ ?_
  · intro index line isHoisted
    exact absurd isHoisted (noDefinition index line)
  · intro counter body isBlock
    exact inside (counter, body) isBlock

/-- Bodies whose placeholders are of functions before them are put together from two stretches, the
    second numbered on from the first. -/
theorem bodiesParsed_append {first : Nat} {functions others : List Definition}
    (leading : BodiesParsed first functions)
    (following : BodiesParsed (first + functions.length) others) :
    BodiesParsed first (functions ++ others) := by
  intro index definition found statement isInside
  rcases Nat.lt_or_ge index functions.length with before | after
  · rw [List.getElem?_append_left before] at found
    exact leading index definition found statement isInside
  · rw [List.getElem?_append_right after] at found
    have parsed := following _ definition found statement isInside
    rwa [show first + functions.length + (index - functions.length) = first + index by omega]
      at parsed

/-- Placeholders in derived phrases are of functions that the phrase itself defines,
    or of functions before those. -/
theorem derives_parsed {first : Nat} {tokens : List Token} {phrase : Phrase}
    {functions : List Definition} (derived : Derives first tokens phrase functions) :
    (∀ statement ∈ phrase.parts, statement.Parsed (first + functions.length)) ∧
      BodiesParsed first functions := by
  have nothing (first : Nat) : BodiesParsed first [] := by
    intro index definition found
    simp at found
  induction derived with
  | block first colon newline close tokens statements functions isColon isBreak isClose nonempty
      derived ih => exact ih
  | chainEnd first => exact ⟨by simp [Phrase.parts], nothing first⟩
  | otherwise first gap keyword tokens body functions breaks isElse derived ih =>
      exact ⟨by simpa [Phrase.parts] using ih.1, ih.2⟩
  | branch first gap keyword condition tokens later comparison body branches otherwise functions
      laterFunctions breaks isElif compared derived continued ih laterIh =>
      refine ⟨?_, bodiesParsed_append ih.2 laterIh.2⟩
      intro statement member
      rw [List.length_append, ← Nat.add_assoc]
      simp only [Phrase.parts, List.map_cons, List.cons_append, List.flatMap_cons,
        List.mem_append] at member
      rcases member with here | later
      · exact (ih.1 statement here).raise (by omega)
      · exact laterIh.1 statement later
  | forRange first keyword counter inside range left start comma stop right tokens body functions
      isFor isCounter isIn isRange opens startBound isComma stopBound closes derived ih =>
      refine ⟨?_, ih.2⟩
      simp only [Phrase.parts, List.mem_singleton, forall_eq]
      exact blocks_parsed rfl (by simp) (by simpa [Statement.blocks, Phrase.parts] using ih.1)
  | whileLoop first keyword condition tokens comparison body functions isWhile compared derived
      ih =>
      refine ⟨?_, ih.2⟩
      simp only [Phrase.parts, List.mem_singleton, forall_eq]
      exact blocks_parsed rfl (by simp) (by simpa [Statement.blocks, Phrase.parts] using ih.1)
  | ifChain first keyword condition tokens later comparison body branches otherwise functions
      laterFunctions isIf compared derived continued ih laterIh =>
      refine ⟨?_, bodiesParsed_append ih.2 laterIh.2⟩
      simp only [Phrase.parts, List.mem_singleton, forall_eq]
      refine blocks_parsed rfl (by simp) ?_
      intro entry isEntry inner isInner
      rw [List.length_append, ← Nat.add_assoc]
      obtain ⟨block, isBlock, rfl⟩ := List.mem_map.mp isEntry
      rw [List.map_cons, List.cons_append, List.mem_cons] at isBlock
      rcases isBlock with rfl | isLater
      · exact (ih.1 inner isInner).raise (by omega)
      · exact laterIh.1 inner (List.mem_flatMap.mpr ⟨block, isLater, isInner⟩)
  | definition first keyword name left right inner resultTokens tokens parameters returns body
      functions isDef isName opens listed closes result derived ih =>
      constructor
      · simp only [Phrase.parts, List.mem_singleton, forall_eq, List.length_append,
          List.length_singleton]
        refine .intro _ (by simp [Statement.values]) ?_ (by simp [Statement.blocks])
        intro index line isHoisted
        cases isHoisted
        omega
      · refine bodiesParsed_append ih.2 ?_
        intro index definition found statement isInside
        rcases index with _ | index
        · obtain rfl : _ = definition := by simpa using found
          exact ih.1 statement isInside
        · simp at found
  | listEnd first gap breaks => exact ⟨by simp [Phrase.parts], nothing first⟩
  | simple first gap tokens later statement statements functions breaks derived ends continued ih =>
      refine ⟨?_, ih.2⟩
      intro other member
      rcases List.mem_cons.mp member with rfl | member
      · exact simple_parsed derived _
      · exact ih.1 other member
  | compound first gap tokens later statement statements functions laterFunctions breaks derived
      continued ih laterIh =>
      refine ⟨?_, bodiesParsed_append ih.2 laterIh.2⟩
      intro other member
      rw [List.length_append, ← Nat.add_assoc]
      rcases List.mem_cons.mp member with rfl | member
      · exact (ih.1 other (by simp [Phrase.parts])).raise (by omega)
      · exact laterIh.1 other member

/-- A derived program has placeholders of its own functions only, each body of
    functions before it. -/
theorem program_parsed {tokens : List Token} {program : Program}
    (derived : ProgramOf tokens program) :
    (∀ statement ∈ program.body, statement.Parsed program.functions.length) ∧
      BodiesParsed 0 program.functions := by
  cases derived with
  | program gap clauseTokens tokens clause body functions breaks imported ends derived =>
      have parsed := derives_parsed derived
      rwa [Nat.zero_add] at parsed

end Grammar

end Offside
