import Offside.Proofs.Source.Printing

/-!
# Leaves that are written out

What stands on one line of a written program: its tokens can be spelled out, and
in whatever line they are read they derive the tree they were written from, with
every leaf on that line.
-/

namespace Offside

open Grammar

/-- A token of a kind with one text is spelled by it. -/
theorem Token.mark_spelled {kind : Kind} (fixed : kind.spelling?.isSome = true) :
    (Token.mark kind).Spelled := by
  cases kind <;> simp_all [Token.mark, Token.Spelled, Kind.spelling?]

/-- If all items can be spelled out, so can the list that is written from them. The commas between
    the items are marks, and a mark always can. -/
theorem spelled_of_mem_commaList {items : List (List Token)}
    (spelled : ∀ item ∈ items, ∀ token ∈ item, token.Spelled) :
    ∀ token ∈ commaList items, token.Spelled := by
  fun_induction commaList items with
  | case1 => simp
  | case2 item => exact spelled item (by simp)
  | case3 item next items ih =>
      have later := ih fun other member => spelled other (List.mem_cons_of_mem item member)
      intro token member
      rcases List.mem_append.mp member with inItem | inLater
      · exact spelled item (by simp) token inItem
      · rcases List.mem_cons.mp inLater with rfl | inLater
        · exact Token.mark_spelled rfl
        · exact later token inLater

/-- Items written with commas between them form a list of just these items, on whatever line they
    are put. The cases are those of `commaList`. -/
theorem listed_commaList (items : List (List Token)) (number : Nat) :
    Listed (items.map (List.map (Token.onLine number)))
      ((commaList items).map (Token.onLine number)) := by
  fun_induction commaList items with
  | case1 => exact .none
  | case2 item => exact .one _
  | case3 item next items ih =>
      rw [List.map_append, List.map_cons]
      exact .more _ _ _ _ _ rfl ih

namespace Expression

/-- Only leaves that can be written stand in a well-formed expression, so each of its tokens can be
    spelled out. -/
theorem WellFormed.spelled {expression : Expression} (wellFormed : expression.WellFormed) :
    ∀ token ∈ expression.tokens, token.Spelled := by
  obtain ⟨left, tail⟩ := expression
  match tail, wellFormed with
  | none, ⟨leftFits, _⟩ => simpa [tokens] using leftFits.2
  | some (operator, right), ⟨leftFits, tailFits⟩ =>
      obtain ⟨operatorFits, rightFits⟩ := tailFits operator right rfl
      simpa [tokens] using ⟨leftFits.2, operatorFits.2, rightFits.2⟩

/-- The tokens of a well-formed expression, put on any line, derive the expression with its leaves
    on that line. -/
theorem WellFormed.derives {expression : Expression} (wellFormed : expression.WellFormed)
    (number : Nat) :
    ExpressionOf (expression.tokens.map (Token.onLine number)) (expression.onLine number) := by
  obtain ⟨left, tail⟩ := expression
  match tail, wellFormed with
  | none, ⟨leftFits, _⟩ => exact .operand _ leftFits.1
  | some (operator, right), ⟨leftFits, tailFits⟩ =>
      obtain ⟨operatorFits, rightFits⟩ := tailFits operator right rfl
      exact .operation _ _ _ leftFits.1 operatorFits.1 rightFits.1

/-- Moving an expression twice is moving it to the second line, since every leaf forgets the line it
    was on. -/
@[simp]
theorem onLine_onLine (first second : Nat) (expression : Expression) :
    (expression.onLine first).onLine second = expression.onLine second := by
  obtain ⟨left, _ | ⟨operator, right⟩⟩ := expression
  · rfl
  · rfl

end Expression

namespace Comparison

/-- A well-formed comparison has two expressions that can be spelled out, and the operator between
    them is a mark. -/
theorem WellFormed.spelled {comparison : Comparison} (wellFormed : comparison.WellFormed) :
    ∀ token ∈ comparison.tokens, token.Spelled := by
  obtain ⟨left, tail⟩ := comparison
  match tail, wellFormed with
  | none, ⟨leftFormed, _⟩ => exact leftFormed.spelled
  | some (comparator, right), ⟨leftFormed, tailFits⟩ =>
      obtain ⟨comparatorFits, rightFormed⟩ := tailFits comparator right rfl
      intro token member
      rcases List.mem_append.mp member with inLeft | inTail
      · exact leftFormed.spelled token inLeft
      · rcases List.mem_cons.mp inTail with rfl | inRight
        · exact comparatorFits.2
        · exact rightFormed.spelled token inRight

/-- The tokens of a well-formed comparison derive it on any line. Both sides do, and the operator is
    left alone but for its line. -/
theorem WellFormed.derives {comparison : Comparison} (wellFormed : comparison.WellFormed)
    (number : Nat) :
    ComparisonOf (comparison.tokens.map (Token.onLine number)) (comparison.onLine number) := by
  obtain ⟨left, tail⟩ := comparison
  match tail, wellFormed with
  | none, ⟨leftFormed, _⟩ => exact .expression _ _ (leftFormed.derives number)
  | some (comparator, right), ⟨leftFormed, tailFits⟩ =>
      obtain ⟨comparatorFits, rightFormed⟩ := tailFits comparator right rfl
      rw [tokens, List.map_append, List.map_cons]
      exact .compared _ _ _ _ _ (leftFormed.derives number) comparatorFits.1
        (rightFormed.derives number)

/-- Moving a comparison twice is moving it to the second line, because this holds for the
    expressions on both sides. -/
@[simp]
theorem onLine_onLine (first second : Nat) (comparison : Comparison) :
    (comparison.onLine first).onLine second = comparison.onLine second := by
  obtain ⟨left, _ | ⟨comparator, right⟩⟩ := comparison
  · simp [onLine]
  · simp [onLine]

end Comparison

namespace Value

/-- The tokens of several values, which the recursion through a call needs in this form, are those
    of each value in turn. -/
theorem tokensAll_eq (values : List Value) : tokensAll values = values.map tokens := by
  induction values with
  | nil => rfl
  | cons value values ih => rw [tokensAll, ih, List.map_cons]

/-- Moving several values, which recurses through calls in the same way, moves each of them to the
    line. -/
theorem onLineAll_eq (number : Nat) (values : List Value) :
    onLineAll number values = values.map (onLine number) := by
  induction values with
  | nil => rfl
  | cons value values ih => rw [onLineAll, ih, List.map_cons]

/-- Every token of a well-formed value can be spelled out. The induction goes through the arguments
    of calls, where the parentheses and commas are marks. -/
theorem WellFormed.spelled {value : Value} (wellFormed : value.WellFormed) :
    ∀ token ∈ value.tokens, token.Spelled := by
  induction wellFormed with
  | terminal token fits => simpa [tokens] using fits.2
  | call callee arguments fits wellFormed ih =>
      have inside : ∀ token ∈ commaList (arguments.map tokens), token.Spelled := by
        apply spelled_of_mem_commaList
        intro item isItem
        obtain ⟨argument, isArgument, rfl⟩ := List.mem_map.mp isItem
        exact ih argument isArgument
      intro token member
      rw [tokens, tokensAll_eq] at member
      simp only [List.mem_cons, List.mem_append, List.not_mem_nil, or_false] at member
      rcases member with rfl | rfl | member | rfl
      · exact fits.2
      · exact Token.mark_spelled rfl
      · exact inside token member
      · exact Token.mark_spelled rfl

/-- The tokens of a well-formed value, put on any line, derive it as an argument. For a call, its
    arguments do so by induction, and they form a list. -/
theorem WellFormed.derives {value : Value} (wellFormed : value.WellFormed) (number : Nat) :
    ArgumentOf (value.tokens.map (Token.onLine number)) (value.onLine number) := by
  induction wellFormed with
  | terminal token fits => exact .operand _ fits.1
  | call callee arguments fits wellFormed ih =>
      let part (argument : Value) : List Token × Value :=
        (argument.tokens.map (Token.onLine number), argument.onLine number)
      have listed : Listed ((arguments.map part).map Prod.fst)
          ((commaList (arguments.map tokens)).map (Token.onLine number)) := by
        have items := listed_commaList (arguments.map tokens) number
        rwa [List.map_map] at items ⊢
      have derived : ∀ item ∈ arguments.map part, ArgumentOf item.1 item.2 := by
        intro item isItem
        obtain ⟨argument, isArgument, rfl⟩ := List.mem_map.mp isItem
        exact ih argument isArgument
      have whole := ArgumentOf.call (callee.onLine number)
        ((Token.mark .leftParen).onLine number) ((Token.mark .rightParen).onLine number)
        (arguments.map part) _ fits.1 rfl rfl listed derived
      rw [List.map_map] at whole
      simpa [tokens, tokensAll_eq, onLine, onLineAll_eq, Function.comp_def, part] using whole

/-- Moving a well-formed value twice is moving it to the second line. For a call the induction gives
    this for all the arguments at once. -/
theorem WellFormed.onLine_onLine {value : Value} (wellFormed : value.WellFormed)
    (first second : Nat) : (value.onLine first).onLine second = value.onLine second := by
  induction wellFormed with
  | terminal token fits => rfl
  | call callee arguments fits wellFormed ih =>
      simpa [onLine, onLineAll_eq] using ih

/-- What a declaration may start with, an expression or a call, derives as an initial value on the
    line it is put on. -/
theorem Initial.derives {value : Value} (initial : value.Initial) (number : Nat) :
    InitialOf (value.tokens.map (Token.onLine number)) (value.onLine number) := by
  cases value with
  | terminal token => exact .literal _ (initial.2 token rfl)
  | call callee arguments => exact .call _ _ _ (initial.1.derives number)

end Value

namespace Parameter

/-- A well-formed parameter is a name, a colon and a type, and each of the three can be spelled
    out. -/
theorem WellFormed.spelled {parameter : Parameter} (wellFormed : parameter.WellFormed) :
    ∀ token ∈ parameter.tokens, token.Spelled := by
  have colon : (Token.mark .colon).Spelled := Token.mark_spelled rfl
  simpa [tokens] using ⟨wellFormed.1.2, colon, wellFormed.2.2⟩

/-- Well-formed parameters written with commas between them derive the list of these parameters,
    every one of them on the given line. -/
theorem derives_all {parameters : List Parameter}
    (wellFormed : ∀ parameter ∈ parameters, parameter.WellFormed) (number : Nat) :
    ParametersOf ((commaList (parameters.map tokens)).map (Token.onLine number))
      (parameters.map (onLine number)) := by
  let part (parameter : Parameter) : List Token × Parameter :=
    (parameter.tokens.map (Token.onLine number), parameter.onLine number)
  refine ⟨parameters.map part, ?_, ?_, ?_⟩
  · have items := listed_commaList (parameters.map tokens) number
    rwa [List.map_map] at items ⊢
  · intro item isItem
    obtain ⟨parameter, isParameter, rfl⟩ := List.mem_map.mp isItem
    obtain ⟨name, type⟩ := wellFormed parameter isParameter
    exact .typed _ _ _ name.1 rfl type.1
  · simp [part, Function.comp_def]

end Parameter

namespace Definition

/-- The tokens of the result type with the arrow before it, if there is one. -/
def result (definition : Definition) : List Token :=
  match definition.returns with
  | none => []
  | some type => [Token.mark .arrow, type]

/-- The header is everything up to the result type, and a colon. -/
theorem header_eq (definition : Definition) :
    definition.header =
      (definition.keyword :: definition.name :: Token.mark .leftParen ::
        (commaList (definition.parameters.map Parameter.tokens) ++
          Token.mark .rightParen :: definition.result)) ++ [Token.mark .colon] := by
  unfold header result
  cases definition.returns <;> simp

/-- The header of a well-formed definition can be spelled out: its name, its parameters and its
    result type can, and all else in it are marks. -/
theorem WellFormed.spelled {definition : Definition} (wellFormed : definition.WellFormed) :
    ∀ token ∈ definition.header, token.Spelled := by
  have parameters : ∀ token ∈ commaList (definition.parameters.map Parameter.tokens),
      token.Spelled := by
    apply spelled_of_mem_commaList
    intro item isItem
    obtain ⟨parameter, isParameter, rfl⟩ := List.mem_map.mp isItem
    exact (wellFormed.parameters parameter isParameter).spelled
  have result : ∀ token ∈ definition.result, token.Spelled := by
    unfold Definition.result
    split
    · simp
    · rename_i type isType
      simpa using ⟨Token.mark_spelled rfl, (wellFormed.returns type isType).2⟩
  intro token member
  rw [header_eq] at member
  simp only [List.mem_append, List.mem_cons, List.not_mem_nil, or_false] at member
  rcases member with (rfl | rfl | rfl | member | rfl | member) | rfl
  · exact wellFormed.keyword.2
  · exact wellFormed.name.2
  · exact Token.mark_spelled rfl
  · exact parameters token member
  · exact Token.mark_spelled rfl
  · exact result token member
  · exact Token.mark_spelled rfl

/-- The arrow and the type after it derive the result type of a definition. Without either, there is
    none to derive. -/
theorem WellFormed.result_derives {definition : Definition} (wellFormed : definition.WellFormed)
    (number : Nat) :
    ResultOf (definition.result.map (Token.onLine number))
      (definition.returns.map (Token.onLine number)) := by
  unfold Definition.result
  split
  · rename_i isNone
    rw [isNone]
    exact .missing
  · rename_i type isType
    rw [isType]
    exact .named _ _ rfl (wellFormed.returns type isType).1

end Definition

namespace ImportClause

/-- Both forms of a well-formed import clause can be spelled out, for they are keywords, a module
    name and at most a mark. -/
theorem WellFormed.spelled {clause : ImportClause} (wellFormed : clause.WellFormed) :
    ∀ token ∈ clause.tokens, token.Spelled := by
  obtain ⟨⟨moduleKind, module, moduleLine⟩, item, line⟩ := clause
  obtain ⟨⟨isName, isRuntime⟩, isItem⟩ := wellFormed
  dsimp only at isName isRuntime
  subst isName isRuntime
  have word : isWord "GoType".toList = true := by decide
  have free : "GoType" ∉ Token.reserved := by decide
  have spelled : (⟨.identifier, "GoType", moduleLine⟩ : Token).Spelled :=
    ⟨wordShape_of_isWord word, free⟩
  cases item with
  | none => simpa [tokens] using ⟨Token.mark_spelled rfl, spelled⟩
  | some item =>
      simpa [tokens] using ⟨Token.mark_spelled rfl, spelled, Token.mark_spelled rfl,
        (isItem item rfl).2⟩

/-- The tokens of a well-formed import clause, put on any line, derive this clause in the form in
    which it was written. -/
theorem WellFormed.derives {clause : ImportClause} (wellFormed : clause.WellFormed)
    (number : Nat) :
    ImportOf (clause.tokens.map (Token.onLine number)) (clause.onLine number) := by
  obtain ⟨module, item, line⟩ := clause
  obtain ⟨⟨isName, isRuntime⟩, isItem⟩ := wellFormed
  cases item with
  | none => exact .whole _ _ rfl isName isRuntime
  | some item => exact .part _ _ _ _ rfl isName isRuntime rfl (isItem item rfl).1

end ImportClause

end Offside
