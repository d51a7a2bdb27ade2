import Offside.Proofs.Go.Legibility
import Offside.Proofs.Source.Printing

/-!
# Well-formed programs are written legibly

The rows of a well-formed program can be read back. Its leaves are spelled as scanning
demands, so in Go they are words or string literals, and its operators are marks.
-/

namespace Offside

open Grammar Go

/-! ## Leaves -/

/-- What has the shape of a word in the source is the text of a word in Go, for both admit letters,
    digits and underscores. -/
theorem wordText_of_wordShape {text : List Char} (shape : WordShape text) :
    Part.WordText text := by
  obtain ⟨first, rest, rfl, letter, inside⟩ := shape
  refine .inl ⟨by simp, List.forall_mem_cons.mpr ⟨?_, fun char member => ?_⟩⟩
  · simp [Part.isWordChar, Char.isAlphanum, letter]
  · rcases inside char member with alphanumeric | rfl
    · simp [Part.isWordChar, alphanumeric]
    · decide

/-- What has the shape of a number is the text of a word in Go, too, since points are admitted in
    it. -/
theorem wordText_of_numberShape {text : List Char} (shape : NumberShape text) :
    Part.WordText text := by
  have isDigit {char : Char} (digit : char.isDigit = true) : Part.isWordChar char = true := by
    simp [Part.isWordChar, Char.isAlphanum, digit]
  obtain ⟨first, rest, rfl, digit, inside, -⟩ := shape
  refine .inl ⟨by simp, List.forall_mem_cons.mpr ⟨isDigit digit, fun char member => ?_⟩⟩
  rcases inside char member with digit | rfl | rfl
  · exact isDigit digit
  · decide
  · decide

/-- The kinds of tokens that stand as words. -/
def wordKinds : List Kind :=
  [.identifier, .print, .intLiteral, .stringLiteral, .boolLiteral, .nullLiteral]

/-- A token that is spelled out and stands as a word is a word in Go. -/
theorem asWord_valid {token : Token} (spelled : token.Spelled)
    (isWord : token.kind ∈ wordKinds) : token.asWord.Valid := by
  obtain ⟨kind, lexeme, line⟩ := token
  have plain {text : List Char} (nonempty : text ≠ [])
      (inside : text.all Part.isWordChar = true) : Part.WordText text :=
    .inl ⟨nonempty, List.all_eq_true.mp inside⟩
  simp only [wordKinds, List.mem_cons, List.not_mem_nil, or_false] at isWord
  rcases isWord with rfl | rfl | rfl | rfl | rfl | rfl
  · exact wordText_of_wordShape spelled.1
  · have written : (Token.mk .print lexeme line).asWord = .word "println" := rfl
    rw [written]
    exact plain (by decide) (by decide)
  · exact wordText_of_numberShape spelled
  · exact .inr spelled
  · have lower (ascii : ∀ char ∈ lexeme.toList, char.toNat < 128) :
        (Token.mk .boolLiteral lexeme line).asWord =
          .word (String.ofList (lexeme.toList.map Char.toLower)) := by
      rw [← Text.loweredChars_ascii ascii]
      rfl
    rcases spelled with rfl | rfl
    · rw [lower (by simp)]
      exact plain (by decide) (by decide)
    · rw [lower (by simp)]
      exact plain (by decide) (by decide)
  · have written : (Token.mk .nullLiteral lexeme line).asWord = .word "nil" := rfl
    rw [written]
    exact plain (by decide) (by decide)

/-- A name stands as a word that can be read back: it was scanned as letters, digits and
    underscores. -/
theorem name_valid {token : Token} (fits : token.Fits (·.kind = .identifier)) :
    token.asWord.Valid :=
  asWord_valid fits.2 (by simp [wordKinds, fits.1])

/-- An operand stands as a word that can be read back, be it a name, a number, a truth value, or a
    literal in quotes. -/
theorem operand_valid {token : Token} (fits : token.Fits Operand) : token.asWord.Valid := by
  refine asWord_valid fits.2 ?_
  rcases fits.1 with kind | isLiteral
  · simp [wordKinds, kind]
  · simp only [Literal, List.mem_cons, List.not_mem_nil, or_false] at isLiteral
    rcases isLiteral with kind | kind | kind | kind <;> simp [wordKinds, kind]

/-- A bound of a range stands as a word that can be read back, since it is a name or a number. -/
theorem bound_valid {token : Token} (fits : token.Fits Bound) : token.asWord.Valid := by
  refine asWord_valid fits.2 ?_
  rcases fits.1 with kind | kind <;> simp [wordKinds, kind]

/-- A callee stands as a word that can be read back. In the case of `print` it is the name of
    another function that is written. -/
theorem callee_valid {token : Token} (fits : token.Fits Callee) : token.asWord.Valid := by
  refine asWord_valid fits.2 ?_
  rcases fits.1 with kind | kind <;> simp [wordKinds, kind]

/-- The marks of the operators in expressions. -/
def operatorMarks : List String :=
  ["+", "-", "*", "/", "%"]

/-- The marks of the comparators in conditions. -/
def comparatorMarks : List String :=
  ["==", "!=", ">", ">=", "<", "<="]

/-- An operator of arithmetic is written as one of the five marks of this sort. -/
theorem operator_mark {token : Token} (fits : token.Fits Operator) :
    spelling token ∈ operatorMarks := by
  obtain ⟨kind, lexeme, line⟩ := token
  obtain ⟨isOperator, spelled⟩ := fits
  simp only [Operator, List.mem_cons, List.not_mem_nil, or_false] at isOperator
  rcases isOperator with rfl | rfl | rfl | rfl | rfl <;> cases spelled <;>
    simp [spelling, spelling?, operatorMarks]

/-- A comparator is written as one of the six marks of this sort. -/
theorem comparator_mark {token : Token} (fits : token.Fits Comparator) :
    spelling token ∈ comparatorMarks := by
  obtain ⟨kind, lexeme, line⟩ := token
  obtain ⟨isComparator, spelled⟩ := fits
  simp only [Comparator, List.mem_cons, List.not_mem_nil, or_false] at isComparator
  rcases isComparator with rfl | rfl | rfl | rfl | rfl | rfl <;> cases spelled <;>
    simp [spelling, spelling?, comparatorMarks]

/-- An operator is written as a mark that can be read back. -/
theorem operator_valid {token : Token} (fits : token.Fits Operator) : token.asMark.Valid := by
  have every : ∀ text ∈ operatorMarks, text ∈ Part.operators := by decide
  exact .inr (every _ (operator_mark fits))

/-- A comparator is written as a mark that can be read back. -/
theorem comparator_valid {token : Token} (fits : token.Fits Comparator) :
    token.asMark.Valid := by
  have every : ∀ text ∈ comparatorMarks, text ∈ Part.operators := by decide
  exact .inr (every _ (comparator_mark fits))

/-! ## Lists of parts -/

namespace Go.Part

/-- A delimiter may follow the last of the parts. -/
def Closed (parts : List Part) : Prop :=
  ∀ last ∈ parts.getLast?, ∀ text, last.MayPrecede (.mark text)

/-- Where there are no parts, there is nothing that could not be read back. -/
@[simp]
theorem legible_nil : Legible [] :=
  ⟨by simp, .nil⟩

/-- One part alone is legible exactly when its text is one that it may have. -/
@[simp]
theorem legible_singleton {part : Part} : Legible [part] ↔ part.Valid := by
  simp [Legible]

/-- Parts in two stretches are legible exactly when both stretches are and the last part of the
    first may precede the first part of the second. -/
theorem legible_append {parts others : List Part} :
    Legible (parts ++ others) ↔ Legible parts ∧ Legible others ∧
      ∀ last ∈ parts.getLast?, ∀ first ∈ others.head?, last.MayPrecede first := by
  simp only [Legible, List.forall_mem_append, List.isChain_append]
  tauto

/-- A blank may stand anywhere, so parts with a blank in the middle are legible exactly when those
    on both sides are. -/
@[simp]
theorem legible_gap {parts others : List Part} :
    Legible (parts ++ gap :: others) ↔ Legible parts ∧ Legible others := by
  have before (last : Part) : last.MayPrecede gap := by
    cases last <;> simp [MayPrecede]
  have after : Legible (gap :: others) ↔ Legible others := by
    cases others <;> simp [Legible, Valid, MayPrecede]
  rw [legible_append, after]
  simp [before]

/-- In front of a blank any valid part may stand, words and operators alike. -/
@[simp]
theorem legible_cons_gap {part : Part} {parts : List Part} :
    Legible (part :: gap :: parts) ↔ part.Valid ∧ Legible parts := by
  rw [← List.singleton_append, legible_gap, legible_singleton]

/-- In front of a mark any valid word may stand, because no mark continues a word. -/
@[simp]
theorem legible_word_mark {text other : String} {parts : List Part} :
    Legible (word text :: mark other :: parts) ↔
      (word text).Valid ∧ Legible (mark other :: parts) := by
  simp [Legible, MayPrecede, and_assoc, and_left_comm]

/-- Anything may follow a delimiter, so one in front of other parts has no say in whether they are
    legible. -/
theorem legible_cons_delimiter {parts : List Part} {text : String}
    (isDelimiter : text ∈ delimiters) : Legible (mark text :: parts) ↔ Legible parts := by
  cases parts <;> simp [Legible, Valid, MayPrecede, isDelimiter]

/-- A delimiter joins two legible stretches of parts if it may follow the first of them. -/
theorem Closed.legible_delimiter {parts others : List Part} {text : String} (closed : Closed parts)
    (legible : Legible parts) (isDelimiter : text ∈ delimiters) (after : Legible others) :
    Legible (parts ++ mark text :: others) := by
  refine legible_append.mpr ⟨legible, (legible_cons_delimiter isDelimiter).mpr after, ?_⟩
  intro last isLast first isFirst
  obtain rfl : mark text = first := by simpa using isFirst
  exact closed last isLast text

/-- A delimiter may follow parts if it may follow the last one. -/
theorem closed_concat (parts : List Part) {last : Part}
    (apart : ∀ text, last.MayPrecede (.mark text)) : Closed (parts ++ [last]) := by
  simpa [Closed] using apart

/-- Items with commas between them, and the bracket after them, are legible if each item is and a
    delimiter may follow it. The induction is on the items. -/
theorem legible_separated {items : List (List Part)}
    (each : ∀ item ∈ items, Legible item ∧ Closed item) {rest : List Part} (after : Legible rest) :
    Legible (separated items ++ mark ")" :: rest) := by
  induction items with
  | nil => exact (legible_cons_delimiter (by decide)).mpr after
  | cons item items ih =>
      rw [List.forall_mem_cons] at each
      obtain ⟨⟨legible, closed⟩, later⟩ := each
      cases items with
      | nil => exact closed.legible_delimiter legible (by decide) after
      | cons next items =>
          rw [separated, List.append_assoc, List.cons_append, List.cons_append]
          exact closed.legible_delimiter legible (by decide)
            (legible_gap.mpr ⟨legible_nil, ih later⟩)

end Go.Part

open Go.Part

/-- A well-formed expression is written legibly: its operator has a blank on either side. -/
theorem expression_legible {expression : Expression} (wellFormed : expression.WellFormed) :
    Legible expression.parts := by
  obtain ⟨left, tail⟩ := expression
  have leftValid := operand_valid wellFormed.left
  cases tail with
  | none => simpa [Expression.parts] using leftValid
  | some tail =>
      obtain ⟨operator, right⟩ := tail
      obtain ⟨isOperator, isOperand⟩ := wellFormed.tail operator right rfl
      simpa [Expression.parts] using
        ⟨leftValid, operator_valid isOperator, operand_valid isOperand⟩

/-- A well-formed condition is written legibly, for both sides are and the comparator between them
    has a blank on either side. -/
theorem comparison_legible {condition : Comparison} (wellFormed : condition.WellFormed) :
    Legible condition.parts := by
  obtain ⟨left, tail⟩ := condition
  have leftLegible := expression_legible wellFormed.left
  cases tail with
  | none => exact leftLegible
  | some tail =>
      obtain ⟨comparator, right⟩ := tail
      obtain ⟨isComparator, isExpression⟩ := wellFormed.tail comparator right rfl
      simpa [Comparison.parts] using
        ⟨leftLegible, comparator_valid isComparator, expression_legible isExpression⟩

/-- The parts of several values are those of each in turn. In the definition they recurse together
    with the parts of one. -/
theorem partsAll_eq (values : List Value) : Value.partsAll values = values.map Value.parts := by
  induction values with
  | nil => rfl
  | cons value values ih => rw [Value.partsAll, ih, List.map_cons]

/-- A well-formed value is written legibly and a delimiter may follow it. Both are needed by the
    induction, as values are arguments of values. -/
theorem value_legible {value : Value} (wellFormed : value.WellFormed) :
    Legible value.parts ∧ Closed value.parts := by
  induction wellFormed with
  | terminal token fits =>
      rw [Value.parts]
      exact ⟨legible_singleton.mpr (operand_valid fits), closed_concat [] fun _ => trivial⟩
  | call callee arguments fits _ ih =>
      rw [Value.parts, partsAll_eq]
      have inside : Legible (separated (arguments.map Value.parts) ++ [.mark ")"]) :=
        legible_separated (List.forall_mem_map.mpr ih) legible_nil
      refine ⟨legible_word_mark.mpr ⟨callee_valid fits, ?_⟩, ?_⟩
      · exact (legible_cons_delimiter (by decide)).mpr inside
      · exact closed_concat (callee.asWord :: .mark "(" :: separated (arguments.map Value.parts))
          fun _ => .inl (by decide)

/-- A well-formed parameter is written legibly, as a name and its type, and a delimiter may follow
    it. -/
theorem parameter_legible {parameter : Parameter} (wellFormed : parameter.WellFormed) :
    Legible parameter.parts ∧ Closed parameter.parts := by
  refine ⟨?_, closed_concat [parameter.name.asWord, .gap] fun _ => trivial⟩
  simpa [Parameter.parts] using ⟨name_valid wellFormed.1, name_valid wellFormed.2⟩

/-! ## Rows -/

/-- Every one of the rows can be read back. -/
def Go.Row.AllLegible (rows : List Row) : Prop :=
  ∀ row ∈ rows, row.Legible

open Go.Row

/-- A keyword of Go, or another word that is always the same, can be read back: its letters are
    those of words. -/
theorem keyword_valid {text : String}
    (plain : text.toList ≠ [] ∧ text.toList.all isWordChar = true) : (Part.word text).Valid :=
  .inl ⟨plain.1, List.all_eq_true.mp plain.2⟩

/-- The header of a block can be read back if its parts can, for a blank stands in front of the
    brace. -/
theorem header_legible {parts : List Part} (legible : Legible parts) (depth : Nat) :
    (Row.header depth parts).Legible := by
  have opened : Legible [.mark "\x7b"] := legible_singleton.mpr (.inr (by decide))
  exact ⟨by simp, legible_gap.mpr ⟨legible, opened⟩⟩

/-- A row alone can be read back if it has parts and these can be. -/
theorem single_legible {depth : Nat} {parts : List Part} (nonempty : parts ≠ [])
    (legible : Legible parts) : AllLegible [.code depth parts] :=
  List.forall_mem_singleton.mpr ⟨nonempty, legible⟩

/-- The row that ends a block can be read back, for it is one brace at a certain depth. -/
theorem close_legible (depth : Nat) : AllLegible [.close depth] :=
  single_legible (by simp) (legible_singleton.mpr (.inr (by decide)))

/-- A block between its header and its end can be read back, and whatever rows come after the header
    may stand for the end. -/
theorem block_legible {depth : Nat} {parts : List Part} {rows rest : List Row}
    (legible : Legible parts) (inside : AllLegible rows) (after : AllLegible rest) :
    AllLegible (.header depth parts :: (rows ++ rest)) :=
  List.forall_mem_cons.mpr
    ⟨header_legible legible depth, List.forall_mem_append.mpr ⟨inside, after⟩⟩

/-- The rows of several statements can be read back if those of each can, by induction on the
    list. -/
theorem rowsAll_legible {statements : List Statement} {depth : Nat}
    (each : ∀ statement ∈ statements, AllLegible (statement.rows depth)) :
    AllLegible (Statement.rowsAll depth statements) := by
  induction statements with
  | nil => simp [Statement.rowsAll, AllLegible]
  | cons statement statements ih =>
      rw [List.forall_mem_cons] at each
      rw [Statement.rowsAll]
      exact List.forall_mem_append.mpr ⟨each.1, ih each.2⟩

/-- The rows of a block are those of its statements. The line that it stands on is not written. -/
theorem Block.rows_eq (depth : Nat) (body : Block Statement) :
    body.rows depth = Statement.rowsAll depth body.statements := by
  rw [Block.rows]

/-- The rows of a block can be read back if those of each of its statements can. -/
theorem body_legible {body : Block Statement} {depth : Nat}
    (each : ∀ statement ∈ body.statements, AllLegible (statement.rows depth)) :
    AllLegible (body.rows depth) := by
  rw [Block.rows_eq]
  exact rowsAll_legible each

/-- The rows of branches can be read back if their conditions are well-formed and their blocks can
    be read back. The induction changes the opening after the first branch. -/
theorem branches_legible {branches : List (Branch Statement)} {depth : Nat} {opening : List Part}
    (opens : Legible opening)
    (compared : ∀ branch ∈ branches, branch.condition.WellFormed)
    (inside : ∀ branch ∈ branches, AllLegible (branch.body.rows (depth + 1))) :
    AllLegible (Branch.rowsAll depth opening branches) := by
  have continues : Legible elseIf := by
    have isElse : (Part.word "else").Valid := keyword_valid (by decide)
    have isIf : (Part.word "if").Valid := keyword_valid (by decide)
    have closes : (Part.mark "\x7d").Valid := .inr (by decide)
    simpa [elseIf] using ⟨closes, isElse, isIf⟩
  induction branches generalizing opening with
  | nil => simp [Branch.rowsAll, AllLegible]
  | cons branch branches ih =>
      rw [List.forall_mem_cons] at compared inside
      rw [Branch.rowsAll]
      exact block_legible (legible_gap.mpr ⟨opens, comparison_legible compared.1⟩) inside.1
        (ih continues compared.2 inside.2)

/-- The rows of a well-formed statement can be read back, at any depth. The induction is on what is
    in its blocks. -/
theorem statement_legible {statement : Statement} (wellFormed : statement.WellFormed)
    (depth : Nat) : AllLegible (statement.rows depth) := by
  have isFor : (Part.word "for").Valid := keyword_valid (by decide)
  have assign : (Part.mark "=").Valid := .inr (by decide)
  induction wellFormed generalizing depth with
  | forRange keyword counter start stop body _ isName startBound stopBound nonempty _ ih =>
      rw [Statement.rows]
      refine block_legible ?_ (body_legible fun statement member => ih statement member _)
        (close_legible depth)
      have counts : (Part.mark ":=").Valid := .inr (by decide)
      have ends : (Part.mark ";").Valid := .inl (by decide)
      have bounds : (Part.mark "<").Valid := .inr (by decide)
      have increments : (Part.mark "++").Valid := .inr (by decide)
      have isCounter := name_valid isName
      simpa [Token.asWord] using ⟨isFor, isCounter, counts, bound_valid startBound, ends, isCounter,
        bounds, bound_valid stopBound, ends, isCounter, increments⟩
  | whileLoop keyword condition body isWhile compared nonempty _ ih =>
      rw [Statement.rows]
      refine block_legible ?_ (body_legible fun statement member => ih statement member _)
        (close_legible depth)
      simpa using ⟨isFor, comparison_legible compared⟩
  | ifChain first branches otherwise isIf isElif compared nonempty _ otherwiseNonempty _ ih
      otherwiseIh =>
      have opens : Legible [.word "if"] := legible_singleton.mpr (keyword_valid (by decide))
      have chain := branches_legible opens compared fun branch member =>
        body_legible fun statement inside => ih branch member statement inside (depth + 1)
      cases otherwise with
      | none =>
          rw [Statement.rows]
          exact List.forall_mem_append.mpr ⟨chain, close_legible depth⟩
      | some body =>
          have isElse : (Part.word "else").Valid := keyword_valid (by decide)
          have closes : (Part.mark "\x7d").Valid := .inr (by decide)
          rw [Statement.rows]
          refine List.forall_mem_append.mpr ⟨chain, block_legible ?_
            (body_legible fun statement member => otherwiseIh body rfl statement member _)
            (close_legible depth)⟩
          simpa using ⟨closes, isElse⟩
  | declaration name type value isName isType initial =>
      have isVar : (Part.word "var").Valid := keyword_valid (by decide)
      rw [Statement.rows]
      refine single_legible (by simp) ?_
      simpa using ⟨isVar, name_valid isName, name_valid isType, assign, (value_legible initial.1).1⟩
  | manipulation target value isTarget wellFormed =>
      rw [Statement.rows]
      refine single_legible (by simp) ?_
      simpa using ⟨name_valid isTarget, assign, expression_legible wellFormed⟩
  | call callee arguments wellFormed =>
      rw [Statement.rows]
      exact single_legible (by simp [Value.parts]) (value_legible wellFormed).1
  | returnValue keyword value _ isOperand =>
      have isReturn : (Part.word "return").Valid := keyword_valid (by decide)
      rw [Statement.rows]
      refine single_legible (by simp) ?_
      simpa using ⟨isReturn, operand_valid isOperand⟩
  | hoisted index line => simp [Statement.rows, AllLegible, Row.Legible]

/-- The rows of a well-formed function can be read back, those of its header as well as those of its
    body. -/
theorem definition_legible {definition : Definition} (wellFormed : definition.WellFormed) :
    AllLegible definition.rows := by
  have isFunc : (Part.word "func").Valid := keyword_valid (by decide)
  have result : Legible (resultParts definition.returns) := by
    cases returns : definition.returns with
    | none => exact legible_nil
    | some type =>
        have isType := name_valid (wellFormed.returns type returns)
        exact legible_gap.mpr ⟨legible_nil, legible_singleton.mpr isType⟩
  have parameters : Legible (separated (definition.parameters.map Parameter.parts) ++
      .mark ")" :: resultParts definition.returns) :=
    legible_separated (List.forall_mem_map.mpr fun parameter member =>
      parameter_legible (wellFormed.parameters parameter member)) result
  rw [Definition.rows]
  refine block_legible ?_ (body_legible fun statement member =>
    statement_legible (wellFormed.body statement member) 1) (close_legible 0)
  refine legible_cons_gap.mpr ⟨isFunc, legible_word_mark.mpr ⟨name_valid wellFormed.name, ?_⟩⟩
  exact (legible_cons_delimiter (by decide)).mpr parameters

/-- The rows of all functions can be read back, by induction on the list, and the blank ones between
    them can, too. -/
theorem definitions_legible {definitions : List Definition}
    (each : ∀ definition ∈ definitions, definition.WellFormed) :
    AllLegible (Definition.rowsAll definitions) := by
  induction definitions with
  | nil => simp [Definition.rowsAll, AllLegible]
  | cons definition definitions ih =>
      rw [List.forall_mem_cons] at each
      exact List.forall_mem_cons.mpr
        ⟨trivial, List.forall_mem_append.mpr ⟨definition_legible each.1, ih each.2⟩⟩

/-- The rows of a well-formed program can be read back, so its text shows all of them. -/
theorem program_legible {program : Program} (wellFormed : program.WellFormed) :
    AllLegible program.rows := by
  have isPackage : (Part.word "package").Valid := keyword_valid (by decide)
  have isMain : (Part.word "main").Valid := keyword_valid (by decide)
  have isFunc : (Part.word "func").Valid := keyword_valid (by decide)
  refine List.forall_mem_cons.mpr ⟨⟨by simp, by simpa using ⟨isPackage, isMain⟩⟩, ?_⟩
  refine List.forall_mem_append.mpr ⟨definitions_legible wellFormed.functions, ?_⟩
  refine List.forall_mem_cons.mpr ⟨trivial, block_legible ?_
    (rowsAll_legible fun statement member =>
      statement_legible (wellFormed.body statement member) 1) (close_legible 0)⟩
  refine legible_cons_gap.mpr ⟨isFunc, legible_word_mark.mpr ⟨isMain, ?_⟩⟩
  exact (legible_cons_delimiter (by decide)).mpr (legible_singleton.mpr (.inl (by decide)))

end Offside
