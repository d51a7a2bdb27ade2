import Offside.Proofs.Go.Alike
import Offside.Proofs.Go.Written

/-!
# The text determines the program

Programs with the same text in Go are alike. Rows can be read back from the text, so
what is left is to read trees back from rows. Every phrase can be cut off rows that start
with it, whatever follows: two phrases that start the same rows are alike, and the same
rows follow them.

The form of a statement shows in its first row, although two kinds of loops start with
the same word, and a row that starts with a closing brace starts no statement, so the
statements of a block end there.
-/

namespace Offside

open Grammar Go

/-! ## Leaves -/

/-- Tokens of one spelling are alike if it is not empty, which is what the spelling of a token that
    cannot be written comes to. -/
theorem alike_of_spelling {token other : Token} (same : spelling token = spelling other)
    (written : spelling token ≠ "") : token.Alike other := by
  have found {token : Token} (written : spelling token ≠ "") :
      spelling? token = some (spelling token) := by
    cases isSpelled : spelling? token with
    | none => exact absurd (by simp [spelling, isSpelled]) written
    | some text => simp [spelling, isSpelled]
  exact ⟨spelling token, found written, same ▸ found (same ▸ written)⟩

/-- Tokens that make the same word are alike if the word can be read back, for then its text is not
    empty. -/
theorem alike_of_asWord {token other : Token} (valid : token.asWord.Valid)
    (same : token.asWord = other.asWord) : token.Alike other := by
  refine alike_of_spelling (Part.word.inj same) ?_
  intro empty
  rw [Token.asWord, empty] at valid
  rcases valid with ⟨nonempty, -⟩ | ⟨body, quoted, -⟩
  · exact nonempty rfl
  · cases quoted

/-- Tokens that make the same mark are alike if the mark is one of some that are not empty. -/
theorem alike_of_asMark {token other : Token} {marks : List String}
    (listed : spelling token ∈ marks) (written : "" ∉ marks)
    (same : token.asMark = other.asMark) : token.Alike other := by
  refine alike_of_spelling (Part.mark.inj same) ?_
  intro empty
  exact written (empty ▸ listed)

/-- The text of a keyword does not depend on how it was written. -/
theorem keyword_alike {token other : Token} {kind : Kind}
    (isKeyword : kind ∈ [Kind.forWord, .whileWord, .ifWord, .elifWord, .returnWord, .defWord])
    (isKind : token.Fits (·.kind = kind)) (isOtherKind : other.Fits (·.kind = kind)) :
    token.Alike other := by
  obtain ⟨sameKind, -⟩ := isKind
  obtain ⟨otherSameKind, -⟩ := isOtherKind
  simp only [List.mem_cons, List.not_mem_nil, or_false] at isKeyword
  rcases isKeyword with rfl | rfl | rfl | rfl | rfl | rfl <;>
    simp [Token.Alike, spelling?, sameKind, otherSameKind]

/-! ## Expressions and values -/

/-- No operator follows. -/
def NoOperator (rest : List Part) : Prop :=
  ∀ text more, rest = .gap :: .mark text :: more → text ∉ operatorMarks

/-- Expressions that start the same parts are alike, and the same parts follow, if no operator does.
    Otherwise one could be longer than the other. -/
theorem expression_cut {expression other : Expression} {rest otherRest : List Part}
    (wellFormed : expression.WellFormed) (otherWellFormed : other.WellFormed)
    (ends : NoOperator rest) (otherEnds : NoOperator otherRest)
    (same : expression.parts ++ rest = other.parts ++ otherRest) :
    expression.Alike other ∧ rest = otherRest := by
  obtain ⟨left, tail⟩ := expression
  obtain ⟨otherLeft, otherTail⟩ := other
  have leftValid := operand_valid wellFormed.left
  rcases tail with _ | ⟨operator, right⟩ <;>
    rcases otherTail with _ | ⟨otherOperator, otherRight⟩ <;>
    simp only [Expression.parts, List.cons_append, List.nil_append, List.cons.injEq] at same
  · exact ⟨⟨alike_of_asWord leftValid same.1, .none⟩, same.2⟩
  · have isOperator := (otherWellFormed.tail otherOperator otherRight rfl).1
    exact absurd (operator_mark isOperator) (ends _ _ same.2)
  · have isOperator := (wellFormed.tail operator right rfl).1
    exact absurd (operator_mark isOperator) (otherEnds _ _ same.2.symm)
  · obtain ⟨isOperator, isOperand⟩ := wellFormed.tail operator right rfl
    obtain ⟨sameLeft, -, sameOperator, -, sameRight, sameRest⟩ := same
    exact ⟨⟨alike_of_asWord leftValid sameLeft,
      .some ⟨alike_of_asMark (operator_mark isOperator) (by decide) sameOperator,
        alike_of_asWord (operand_valid isOperand) sameRight⟩⟩, sameRest⟩

/-- Where nothing follows, no operator does. -/
theorem noOperator_nil : NoOperator [] := by
  rintro text more ⟨⟩

/-- Expressions with the same parts are alike, since nothing follows either of them. -/
theorem expression_alike {expression other : Expression} (wellFormed : expression.WellFormed)
    (otherWellFormed : other.WellFormed) (same : expression.parts = other.parts) :
    expression.Alike other := by
  have whole : expression.parts ++ [] = other.parts ++ [] := by rw [same]
  exact (expression_cut wellFormed otherWellFormed noOperator_nil noOperator_nil whole).1

/-- A comparator is no operator, so the expression in front of it ends there. -/
theorem noOperator_comparator {comparator : Token} (fits : comparator.Fits Comparator)
    (rest : List Part) : NoOperator (.gap :: comparator.asMark :: rest) := by
  have apart : ∀ text ∈ comparatorMarks, text ∉ operatorMarks := by decide
  rintro _ _ ⟨⟩
  exact apart _ (comparator_mark fits)

/-- Conditions with the same parts are alike. The first expression is cut off, and then either a
    comparator and a second one follow in both or nothing does. -/
theorem comparison_alike {condition other : Comparison} (wellFormed : condition.WellFormed)
    (otherWellFormed : other.WellFormed) (same : condition.parts = other.parts) :
    condition.Alike other := by
  obtain ⟨left, tail⟩ := condition
  obtain ⟨otherLeft, otherTail⟩ := other
  have leftCut {rest otherRest : List Part} :=
    @expression_cut left otherLeft rest otherRest wellFormed.left otherWellFormed.left
  rcases tail with _ | ⟨comparator, right⟩ <;>
    rcases otherTail with _ | ⟨otherComparator, otherRight⟩
  · exact ⟨expression_alike wellFormed.left otherWellFormed.left same, .none⟩
  · have isComparator := (otherWellFormed.tail otherComparator otherRight rfl).1
    rw [Comparison.parts, ← List.append_nil left.parts] at same
    cases (leftCut noOperator_nil (noOperator_comparator isComparator _) same).2
  · have isComparator := (wellFormed.tail comparator right rfl).1
    rw [Comparison.parts, Comparison.parts, ← List.append_nil otherLeft.parts] at same
    cases (leftCut (noOperator_comparator isComparator _) noOperator_nil same).2
  · obtain ⟨isComparator, isExpression⟩ := wellFormed.tail comparator right rfl
    obtain ⟨isOtherComparator, isOtherExpression⟩ :=
      otherWellFormed.tail otherComparator otherRight rfl
    obtain ⟨leftAlike, rest⟩ := leftCut (noOperator_comparator isComparator _)
      (noOperator_comparator isOtherComparator _) same
    simp only [List.cons.injEq, true_and] at rest
    exact ⟨leftAlike,
      .some ⟨alike_of_asMark (comparator_mark isComparator) (by decide) rest.1,
        expression_alike isExpression isOtherExpression rest.2⟩⟩

/-- No bracket opens, so what stands before is no callee. -/
def NoCall (rest : List Part) : Prop :=
  rest.head? ≠ some (.mark "(")

/-- What stands after the first of several items: the others, each after a comma, and
    the bracket. -/
def afterFirst : List (List Part) → List Part → List Part
  | [], rest => .mark ")" :: rest
  | item :: items, rest => .mark "," :: .gap :: (item ++ afterFirst items rest)

/-- Items with commas between them and a bracket at the end are the first item and what stands after
    it. -/
theorem separated_cons (item : List Part) (items : List (List Part)) (rest : List Part) :
    Part.separated (item :: items) ++ .mark ")" :: rest = item ++ afterFirst items rest := by
  induction items generalizing item with
  | nil => rfl
  | cons next items ih =>
      rw [Part.separated, List.append_assoc, List.cons_append, List.cons_append, ih next]
      rfl

/-- After an item a comma or a closing bracket stands, so no bracket is opened there. -/
theorem noCall_afterFirst (items : List (List Part)) (rest : List Part) :
    NoCall (afterFirst items rest) := by
  cases items <;> simp [afterFirst, NoCall]

section Items

variable {α : Type} {parts : α → List Part} {alike : α → α → Prop} {items others : List α}
  {rest otherRest : List Part}

/-- If items can be cut off one by one, so can a whole list of them, up to the bracket. The
    induction is on the items, and commas show that another one comes. -/
theorem afterFirst_cut
    (each : ∀ item ∈ items, ∀ other ∈ others, ∀ rest otherRest, NoCall rest → NoCall otherRest →
      parts item ++ rest = parts other ++ otherRest → alike item other ∧ rest = otherRest)
    (same : afterFirst (items.map parts) rest = afterFirst (others.map parts) otherRest) :
    List.Forall₂ alike items others ∧ rest = otherRest := by
  induction items generalizing others with
  | nil =>
      cases others with
      | nil => exact ⟨.nil, (List.cons.inj same).2⟩
      | cons other others => simp [afterFirst] at same
  | cons item items ih =>
      cases others with
      | nil => simp [afterFirst] at same
      | cons other others =>
          simp only [List.map_cons, afterFirst, List.cons.injEq, true_and] at same
          obtain ⟨isAlike, later⟩ := each item (by simp) other (by simp) _ _
            (noCall_afterFirst _ _) (noCall_afterFirst _ _) same
          obtain ⟨othersAlike, sameRest⟩ := ih
            (fun item member other otherMember => each item (List.mem_cons_of_mem _ member) other
              (List.mem_cons_of_mem _ otherMember)) later
          exact ⟨.cons isAlike othersAlike, sameRest⟩

/-- Items with commas between them are cut off at the bracket that closes after the
    last. Where they start with words, no items are told apart from some. -/
theorem separated_cut
    (each : ∀ item ∈ items, ∀ other ∈ others, ∀ rest otherRest, NoCall rest → NoCall otherRest →
      parts item ++ rest = parts other ++ otherRest → alike item other ∧ rest = otherRest)
    (words : ∀ item, ∃ text more, parts item = .word text :: more)
    (same : Part.separated (items.map parts) ++ .mark ")" :: rest =
      Part.separated (others.map parts) ++ .mark ")" :: otherRest) :
    List.Forall₂ alike items others ∧ rest = otherRest := by
  rcases items with _ | ⟨item, items⟩ <;> rcases others with _ | ⟨other, others⟩
  · exact ⟨.nil, (List.cons.inj same).2⟩
  · obtain ⟨text, more, isWord⟩ := words other
    rw [List.map_cons, separated_cons, isWord] at same
    cases same
  · obtain ⟨text, more, isWord⟩ := words item
    rw [List.map_cons, separated_cons, isWord] at same
    cases same
  · rw [List.map_cons, List.map_cons, separated_cons, separated_cons] at same
    obtain ⟨isAlike, later⟩ := each item (by simp) other (by simp) _ _
      (noCall_afterFirst _ _) (noCall_afterFirst _ _) same
    obtain ⟨othersAlike, sameRest⟩ := afterFirst_cut
      (fun item member other otherMember => each item (List.mem_cons_of_mem _ member) other
        (List.mem_cons_of_mem _ otherMember)) later
    exact ⟨.cons isAlike othersAlike, sameRest⟩

end Items

/-- The parts of a value start with a word, whether it is a leaf or the callee of a call. -/
theorem value_starts (value : Value) : ∃ text more, value.parts = .word text :: more := by
  cases value with
  | terminal token => exact ⟨spelling token, [], by rw [Value.parts]; rfl⟩
  | call callee arguments => exact ⟨spelling callee, _, by rw [Value.parts]; rfl⟩

/-- Values that start the same parts are alike, and the same parts follow, if no bracket is opened
    there. The induction goes through the arguments of calls. -/
theorem value_cut {value other : Value} {rest otherRest : List Part}
    (wellFormed : value.WellFormed) (otherWellFormed : other.WellFormed) (ends : NoCall rest)
    (otherEnds : NoCall otherRest) (same : value.parts ++ rest = other.parts ++ otherRest) :
    value.Alike other ∧ rest = otherRest := by
  induction wellFormed generalizing other rest otherRest with
  | terminal token fits =>
      cases otherWellFormed with
      | terminal otherToken otherFits =>
          simp only [Value.parts, List.cons_append, List.nil_append, List.cons.injEq] at same
          exact ⟨.terminal (alike_of_asWord (operand_valid fits) same.1), same.2⟩
      | call callee arguments otherFits inside =>
          simp only [Value.parts, List.cons_append, List.nil_append, List.cons.injEq] at same
          exact absurd (by rw [same.2]; rfl) ends
  | call callee arguments fits inside ih =>
      cases otherWellFormed with
      | terminal otherToken otherFits =>
          simp only [Value.parts, List.cons_append, List.nil_append, List.cons.injEq] at same
          exact absurd (by rw [← same.2]; rfl) otherEnds
      | call otherCallee others otherFits otherInside =>
          simp only [Value.parts, partsAll_eq, List.cons_append, List.append_assoc, List.nil_append,
            List.cons.injEq, true_and] at same
          obtain ⟨argumentsAlike, sameRest⟩ := separated_cut
            (fun item member other otherMember _ _ noCall otherNoCall =>
              ih item member (otherInside other otherMember) noCall otherNoCall)
            value_starts same.2
          exact ⟨.call (alike_of_asWord (callee_valid fits) same.1) argumentsAlike, sameRest⟩

/-- Values with the same parts are alike, since nothing follows either of them. -/
theorem value_alike {value other : Value} (wellFormed : value.WellFormed)
    (otherWellFormed : other.WellFormed) (same : value.parts = other.parts) :
    value.Alike other := by
  have noCall : NoCall [] := by simp [NoCall]
  have whole : value.parts ++ [] = other.parts ++ [] := by rw [same]
  exact (value_cut wellFormed otherWellFormed noCall noCall whole).1

/-- Parameters that start the same parts, up to the bracket behind them, are alike one by one, and
    the same parts follow the bracket. -/
theorem parameters_cut {parameters others : List Parameter} {rest otherRest : List Part}
    (wellFormed : ∀ parameter ∈ parameters, parameter.WellFormed)
    (same : Part.separated (parameters.map Parameter.parts) ++ .mark ")" :: rest =
      Part.separated (others.map Parameter.parts) ++ .mark ")" :: otherRest) :
    List.Forall₂ Parameter.Alike parameters others ∧ rest = otherRest := by
  refine separated_cut ?_ (fun parameter => ⟨spelling parameter.name, _, rfl⟩) same
  intro parameter member other _ rest otherRest _ _ same
  obtain ⟨isName, isType⟩ := wellFormed parameter member
  simp only [List.cons_append, List.nil_append, List.cons.injEq, true_and] at same
  exact ⟨⟨alike_of_asWord (name_valid isName) same.1,
    alike_of_asWord (name_valid isType) same.2.1⟩, same.2.2⟩

/-! ## Statements -/

/-- The forms of statements. -/
inductive Form where
  | forRange | whileLoop | ifChain | declaration | manipulation | call | returnValue | hoisted

def Statement.form : Statement → Form
  | .forRange .. => .forRange
  | .whileLoop .. => .whileLoop
  | .ifChain .. => .ifChain
  | .declaration .. => .declaration
  | .manipulation .. => .manipulation
  | .call .. => .call
  | .returnValue .. => .returnValue
  | .hoisted .. => .hoisted

/-- The form of the statement that starts with these rows, if one does. -/
def Go.form? : List Row → Option Form
  | .blank :: _ => some .hoisted
  | .code _ (.word _ :: .mark _ :: _) :: _ => some .call
  | .code _ (.word _ :: .gap :: .mark _ :: _) :: _ => some .manipulation
  | .code _ [.word _, .gap, .word _] :: _ => some .returnValue
  | .code _ (.word _ :: .gap :: .word _ :: .gap :: .word _ :: _) :: _ => some .declaration
  | .code _ (.word word :: .gap :: .word _ :: .gap :: .mark text :: _) :: _ =>
      some (if word = "if" then .ifChain else if text = ":=" then .forRange else .whileLoop)
  | _ => none

/-- A condition before the brace: a mark follows its first word, and none that only
    counting loops have. -/
theorem condition_starts {condition : Comparison} (wellFormed : condition.WellFormed) :
    ∃ word text more, condition.parts ++ [.gap, .mark "\x7b"] =
      .word word :: .gap :: .mark text :: more ∧ text ≠ ":=" := by
  obtain ⟨⟨left, leftTail⟩, tail⟩ := condition
  rcases leftTail with _ | ⟨operator, right⟩
  · rcases tail with _ | ⟨comparator, right⟩
    · exact ⟨_, _, _, rfl, by decide⟩
    · have listed := comparator_mark (wellFormed.tail comparator right rfl).1
      refine ⟨_, _, _, rfl, ?_⟩
      rintro counts
      rw [counts] at listed
      exact absurd listed (by decide)
  · have listed := operator_mark (wellFormed.left.tail operator right rfl).1
    have apart : spelling operator ≠ ":=" := by
      intro counts
      rw [counts] at listed
      exact absurd listed (by decide)
    cases tail <;> exact ⟨_, _, _, rfl, apart⟩

/-- The form of a statement shows in its first row. Two kinds of loops start with the same word, but
    the one over a range has more than a condition after it. -/
theorem form_rows {statement : Statement} (wellFormed : statement.WellFormed) (depth : Nat)
    (rest : List Row) : form? (statement.rows depth ++ rest) = some statement.form := by
  cases wellFormed with
  | forRange keyword counter start stop body isFor isName startBound stopBound nonempty inside =>
      rw [Statement.rows]
      rfl
  | whileLoop keyword condition body isWhile compared nonempty inside =>
      obtain ⟨word, text, more, starts, apart⟩ := condition_starts compared
      rw [Statement.rows, Row.header]
      simp only [List.cons_append, starts]
      simp [form?, apart, Statement.form]
  | ifChain first branches otherwise isIf isElif compared nonempty inside otherwiseNonempty
      otherwiseInside =>
      obtain ⟨word, text, more, starts, apart⟩ := condition_starts (compared first (by simp))
      rw [rows_ifChain, chainRows_cons, Row.header]
      simp only [List.cons_append, List.nil_append, starts]
      rfl
  | declaration name type value isName isType initial =>
      rw [Statement.rows]
      rfl
  | manipulation target value isTarget assigned =>
      rw [Statement.rows]
      rfl
  | call callee arguments called =>
      rw [Statement.rows, Value.parts]
      rfl
  | returnValue keyword value isReturn isOperand =>
      rw [Statement.rows]
      rfl
  | hoisted index line =>
      rw [Statement.rows]
      rfl

/-- A chain goes on with rows that start no statement, for each of its next rows starts with a
    closing brace. -/
theorem form_elseIf (depth : Nat) (branches : List (Branch Statement))
    (otherwise : Option (Block Statement)) (rest : List Row) :
    form? (chainRows depth elseIf branches otherwise ++ rest) = none := by
  cases branches with
  | nil => cases otherwise <;> rfl
  | cons branch branches =>
      rw [chainRows_cons]
      rfl

/-- What starts the same rows as the statement is alike, and the same rows follow. -/
def Statement.Cuts (statement : Statement) : Prop :=
  ∀ {other depth rest otherRest}, other.WellFormed →
    statement.rows depth ++ rest = other.rows depth ++ otherRest →
    Phrase.Alike AnyNumbers (.compound statement) (.compound other) ∧ rest = otherRest

/-- What starts the same rows as the block is alike, if no statement follows either. -/
def Block.Cuts (body : Block Statement) : Prop :=
  ∀ {other : Block Statement} {depth rest otherRest},
    (∀ statement ∈ other.statements, statement.WellFormed) → form? rest = none →
    form? otherRest = none → body.rows depth ++ rest = other.rows depth ++ otherRest →
    Phrase.Alike AnyNumbers (.block body) (.block other) ∧ rest = otherRest

/-- If statements can be cut off one by one, so can a list of them, provided that no statement
    follows. The induction is on the statements, and the form of the first row tells whether there
    is another. -/
theorem statements_cut {statements others : List Statement} {depth : Nat}
    {rest otherRest : List Row} (cuts : ∀ statement ∈ statements, statement.Cuts)
    (wellFormed : ∀ statement ∈ statements, statement.WellFormed)
    (otherWellFormed : ∀ statement ∈ others, statement.WellFormed) (ends : form? rest = none)
    (otherEnds : form? otherRest = none)
    (same : Statement.rowsAll depth statements ++ rest =
      Statement.rowsAll depth others ++ otherRest) :
    Phrase.Alike AnyNumbers (.statements statements) (.statements others) ∧
      rest = otherRest := by
  induction statements generalizing others with
  | nil =>
      cases others with
      | nil => exact ⟨.nil, same⟩
      | cons other others =>
          rw [Statement.rowsAll, Statement.rowsAll, List.append_assoc, List.nil_append] at same
          rw [same, form_rows (otherWellFormed other (by simp))] at ends
          cases ends
  | cons statement statements ih =>
      rw [List.forall_mem_cons] at cuts wellFormed
      cases others with
      | nil =>
          rw [Statement.rowsAll, Statement.rowsAll, List.append_assoc, List.nil_append] at same
          rw [← same, form_rows wellFormed.1] at otherEnds
          cases otherEnds
      | cons other others =>
          rw [List.forall_mem_cons] at otherWellFormed
          rw [Statement.rowsAll, Statement.rowsAll, List.append_assoc, List.append_assoc] at same
          obtain ⟨first, later⟩ := cuts.1 otherWellFormed.1 same
          obtain ⟨laterAlike, sameRest⟩ := ih cuts.2 wellFormed.2 otherWellFormed.2 later
          exact ⟨.cons first laterAlike, sameRest⟩

/-- If all statements of a block can be cut off, so can the block. -/
theorem block_cuts {body : Block Statement} (cuts : ∀ statement ∈ body.statements, statement.Cuts)
    (wellFormed : ∀ statement ∈ body.statements, statement.WellFormed) : body.Cuts := by
  intro other depth rest otherRest otherWellFormed ends otherEnds same
  rw [Block.rows_eq, Block.rows_eq] at same
  obtain ⟨alike, sameRest⟩ := statements_cut cuts wellFormed otherWellFormed ends otherEnds same
  exact ⟨.block alike, sameRest⟩

/-- A header and the block under it can be cut off together: equal rows have equal headers, and the
    block is cut off the rows behind them. -/
theorem header_cut {body other : Block Statement} {depth : Nat} {parts otherParts : List Part}
    {rest otherRest : List Row} (cuts : body.Cuts)
    (otherWellFormed : ∀ statement ∈ other.statements, statement.WellFormed)
    (ends : form? rest = none) (otherEnds : form? otherRest = none)
    (same : Row.header depth parts :: (body.rows (depth + 1) ++ rest) =
      Row.header depth otherParts :: (other.rows (depth + 1) ++ otherRest)) :
    parts = otherParts ∧ Phrase.Alike AnyNumbers (.block body) (.block other) ∧
      rest = otherRest := by
  obtain ⟨sameHeader, inside⟩ := List.cons.inj same
  exact ⟨List.append_cancel_right (Row.code.inj sameHeader).2,
    cuts otherWellFormed ends otherEnds inside⟩

/-- A chain after its first block is cut off at the row that ends it. -/
theorem continuation_cut {branches others : List (Branch Statement)}
    {otherwise otherOtherwise : Option (Block Statement)} {depth : Nat} {rest otherRest : List Row}
    (wellFormed : (Phrase.continuation branches otherwise).WellFormed)
    (otherWellFormed : (Phrase.continuation others otherOtherwise).WellFormed)
    (cuts : ∀ branch ∈ branches, branch.body.Cuts) (lastCuts : ∀ body ∈ otherwise, body.Cuts)
    (same : chainRows depth elseIf branches otherwise ++ rest =
      chainRows depth elseIf others otherOtherwise ++ otherRest) :
    Phrase.Alike AnyNumbers (.continuation branches otherwise)
        (.continuation others otherOtherwise) ∧ rest = otherRest := by
  induction branches generalizing others with
  | nil =>
      cases others with
      | nil =>
          rcases otherwise with _ | body <;> rcases otherOtherwise with _ | other
          · exact ⟨.chainEnd, (List.cons.inj same).2⟩
          · simp [chainRows, Branch.rowsAll, Row.header, Row.close] at same
          · simp [chainRows, Branch.rowsAll, Row.header, Row.close] at same
          · simp only [chainRows, Branch.rowsAll, List.nil_append, List.cons_append,
              List.append_assoc] at same
            obtain ⟨-, alike, sameRest⟩ :=
              header_cut (lastCuts body rfl) (otherWellFormed.2 other rfl).2 rfl rfl same
            exact ⟨.otherwise alike, (List.cons.inj sameRest).2⟩
      | cons other others =>
          rw [chainRows_cons] at same
          cases otherwise <;>
            simp [chainRows, Branch.rowsAll, Row.header, Row.close, elseIf] at same
  | cons branch branches ih =>
      cases others with
      | nil =>
          rw [chainRows_cons] at same
          cases otherOtherwise <;>
            simp [chainRows, Branch.rowsAll, Row.header, Row.close, elseIf] at same
      | cons other others =>
          obtain ⟨first, later⟩ := List.forall_mem_cons.mp wellFormed.1
          obtain ⟨otherFirst, otherLater⟩ := List.forall_mem_cons.mp otherWellFormed.1
          rw [List.forall_mem_cons] at cuts
          simp only [chainRows_cons, List.cons_append, List.append_assoc] at same
          obtain ⟨sameParts, alike, sameRest⟩ := header_cut cuts.1 otherFirst.body.2
            (form_elseIf ..) (form_elseIf ..) same
          have sameCondition : branch.condition.parts = other.condition.parts := by
            simpa using sameParts
          obtain ⟨laterAlike, sameEnd⟩ := ih ⟨later, wellFormed.2⟩ ⟨otherLater, otherWellFormed.2⟩
            cuts.2 sameRest
          exact ⟨.branch (keyword_alike (by decide) first.keyword otherFirst.keyword)
            (comparison_alike first.condition otherFirst.condition sameCondition) alike laterAlike,
            sameEnd⟩

/-- Only statements of the same form start the same rows, because the form of each shows in the
    first of them. -/
theorem form_eq {statement other : Statement} {depth : Nat} {rest otherRest : List Row}
    (wellFormed : statement.WellFormed) (otherWellFormed : other.WellFormed)
    (same : statement.rows depth ++ rest = other.rows depth ++ otherRest) :
    statement.form = other.form := by
  have shown := form_rows wellFormed depth rest
  rw [same, form_rows otherWellFormed] at shown
  exact (Option.some.inj shown).symm

/-- A loop over a range can be cut off. Its header shows the counter and both bounds, and its block
    is cut off the rows behind the header. -/
theorem forRange_cuts {keyword counter start stop : Token} {body : Block Statement}
    (wellFormed : (Statement.forRange keyword counter start stop body).WellFormed)
    (cuts : body.Cuts) : (Statement.forRange keyword counter start stop body).Cuts := by
  intro other depth rest otherRest otherWellFormed same
  have sameForm := form_eq wellFormed otherWellFormed same
  cases wellFormed with
  | forRange _ _ _ _ _ isFor isName startBound stopBound _ _ =>
      cases otherWellFormed with
      | forRange _ _ _ _ _ isOtherFor _ _ _ _ otherInside =>
          simp only [Statement.rows, List.cons_append, List.append_assoc] at same
          obtain ⟨sameParts, alike, sameRest⟩ := header_cut cuts otherInside rfl rfl same
          simp only [List.cons.injEq, true_and] at sameParts
          obtain ⟨sameCounter, sameStart, -, sameStop, -⟩ := sameParts
          exact ⟨.forRange (keyword_alike (by decide) isFor isOtherFor)
            (alike_of_asWord (name_valid isName) sameCounter)
            (alike_of_asWord (bound_valid startBound) sameStart)
            (alike_of_asWord (bound_valid stopBound) sameStop) alike, (List.cons.inj sameRest).2⟩
      | _ => cases sameForm

/-- A loop with a condition can be cut off. Its condition is read from the header, and its block is
    cut off the rows behind it. -/
theorem whileLoop_cuts {keyword : Token} {condition : Comparison} {body : Block Statement}
    (wellFormed : (Statement.whileLoop keyword condition body).WellFormed)
    (cuts : body.Cuts) : (Statement.whileLoop keyword condition body).Cuts := by
  intro other depth rest otherRest otherWellFormed same
  have sameForm := form_eq wellFormed otherWellFormed same
  cases wellFormed with
  | whileLoop _ _ _ isWhile compared _ _ =>
      cases otherWellFormed with
      | whileLoop _ _ _ isOtherWhile otherCompared _ otherInside =>
          simp only [Statement.rows, List.cons_append, List.append_assoc] at same
          obtain ⟨sameParts, alike, sameRest⟩ := header_cut cuts otherInside rfl rfl same
          simp only [List.cons.injEq, true_and] at sameParts
          exact ⟨.whileLoop (keyword_alike (by decide) isWhile isOtherWhile)
            (comparison_alike compared otherCompared sameParts) alike, (List.cons.inj sameRest).2⟩
      | _ => cases sameForm

/-- What follows the first branch of a well-formed chain is well-formed as the continuation of a
    chain. -/
theorem continuation_wellFormed {first : Branch Statement} {branches : List (Branch Statement)}
    {otherwise : Option (Block Statement)}
    (wellFormed : (Statement.ifChain (first :: branches) otherwise).WellFormed) :
    (Phrase.continuation branches otherwise).WellFormed := by
  cases wellFormed with
  | ifChain _ _ _ _ isElif compared nonempty inside otherwiseNonempty otherwiseInside =>
      refine ⟨fun branch member => ?_, fun body member => ?_⟩
      · have listed := List.mem_cons_of_mem first member
        exact ⟨isElif branch member, compared branch listed, nonempty branch listed,
          inside branch listed⟩
      · exact ⟨otherwiseNonempty body member, otherwiseInside body member⟩

/-- A chain can be cut off if all of its blocks can. Its branches are read one by one, for a row
    that ends a branch tells how the chain goes on. -/
theorem ifChain_cuts {first : Branch Statement} {branches : List (Branch Statement)}
    {otherwise : Option (Block Statement)}
    (wellFormed : (Statement.ifChain (first :: branches) otherwise).WellFormed)
    (cuts : ∀ branch ∈ first :: branches, branch.body.Cuts)
    (lastCuts : ∀ body ∈ otherwise, body.Cuts) :
    (Statement.ifChain (first :: branches) otherwise).Cuts := by
  intro other depth rest otherRest otherWellFormed same
  have sameForm := form_eq wellFormed otherWellFormed same
  have later := continuation_wellFormed wellFormed
  rw [List.forall_mem_cons] at cuts
  cases wellFormed with
  | ifChain _ _ _ isIf _ compared _ _ _ _ =>
      cases otherWellFormed with
      | ifChain otherFirst others otherOtherwise isOtherIf isElif otherCompared nonempty inside
          otherwiseNonempty otherwiseInside =>
          have otherLater := continuation_wellFormed (.ifChain otherFirst others otherOtherwise
            isOtherIf isElif otherCompared nonempty inside otherwiseNonempty otherwiseInside)
          simp only [rows_ifChain, chainRows_cons, List.cons_append, List.append_assoc] at same
          obtain ⟨sameParts, alike, sameRest⟩ := header_cut cuts.1 (inside otherFirst (by simp))
            (form_elseIf ..) (form_elseIf ..) same
          have sameCondition : first.condition.parts = otherFirst.condition.parts := by
            simpa using sameParts
          obtain ⟨laterAlike, sameEnd⟩ := continuation_cut later otherLater cuts.2 lastCuts sameRest
          have conditionAlike := comparison_alike (compared first (by simp))
            (otherCompared otherFirst (by simp)) sameCondition
          exact ⟨.ifChain (.branch (keyword_alike (by decide) isIf isOtherIf) conditionAlike alike
            laterAlike), sameEnd⟩
      | _ => cases sameForm

/-- A well-formed statement is cut off rows that start with it, by induction on what is in its
    blocks. -/
theorem statement_cuts {statement : Statement} (wellFormed : statement.WellFormed) :
    statement.Cuts := by
  induction wellFormed with
  | forRange keyword counter start stop body isFor isName startBound stopBound nonempty inside ih =>
      exact forRange_cuts (.forRange _ _ _ _ _ isFor isName startBound stopBound nonempty inside)
        (block_cuts ih inside)
  | whileLoop keyword condition body isWhile compared nonempty inside ih =>
      exact whileLoop_cuts (.whileLoop _ _ _ isWhile compared nonempty inside)
        (block_cuts ih inside)
  | ifChain first branches otherwise isIf isElif compared nonempty inside otherwiseNonempty
      otherwiseInside ih otherwiseIh =>
      exact ifChain_cuts
        (.ifChain _ _ _ isIf isElif compared nonempty inside otherwiseNonempty otherwiseInside)
        (fun branch member => block_cuts (ih branch member) (inside branch member))
        (fun body member => block_cuts (otherwiseIh body member) (otherwiseInside body member))
  | declaration name type value isName isType initial =>
      intro other depth rest otherRest otherWellFormed same
      have sameForm :=
        form_eq (.declaration name type value isName isType initial) otherWellFormed same
      cases otherWellFormed with
      | declaration otherName otherType otherValue _ _ otherInitial =>
          simp only [Statement.rows, List.cons_append, List.nil_append, List.cons.injEq,
            Row.code.injEq, true_and] at same
          obtain ⟨⟨sameName, sameType, sameValue⟩, sameRest⟩ := same
          exact ⟨.declaration (alike_of_asWord (name_valid isName) sameName)
            (alike_of_asWord (name_valid isType) sameType)
            (value_alike initial.1 otherInitial.1 sameValue), sameRest⟩
      | _ => cases sameForm
  | manipulation target value isTarget assigned =>
      intro other depth rest otherRest otherWellFormed same
      have sameForm := form_eq (.manipulation target value isTarget assigned) otherWellFormed same
      cases otherWellFormed with
      | manipulation otherTarget otherValue _ otherAssigned =>
          simp only [Statement.rows, List.cons_append, List.nil_append, List.cons.injEq,
            Row.code.injEq, true_and] at same
          obtain ⟨⟨sameTarget, sameValue⟩, sameRest⟩ := same
          exact ⟨.manipulation (alike_of_asWord (name_valid isTarget) sameTarget)
            (expression_alike assigned otherAssigned sameValue), sameRest⟩
      | _ => cases sameForm
  | call callee arguments called =>
      intro other depth rest otherRest otherWellFormed same
      have sameForm := form_eq (.call callee arguments called) otherWellFormed same
      cases otherWellFormed with
      | call otherCallee others otherCalled =>
          simp only [Statement.rows, List.cons_append, List.nil_append, List.cons.injEq,
            Row.code.injEq, true_and] at same
          exact ⟨.call (value_alike called otherCalled same.1), same.2⟩
      | _ => cases sameForm
  | returnValue keyword value isReturn isOperand =>
      intro other depth rest otherRest otherWellFormed same
      have sameForm := form_eq (.returnValue keyword value isReturn isOperand) otherWellFormed same
      cases otherWellFormed with
      | returnValue otherKeyword otherValue isOtherReturn _ =>
          simp only [Statement.rows, List.cons_append, List.nil_append, List.cons.injEq,
            Row.code.injEq, true_and] at same
          exact ⟨.returnValue (keyword_alike (by decide) isReturn isOtherReturn)
            (alike_of_asWord (operand_valid isOperand) same.1.1), same.2⟩
      | _ => cases sameForm
  | hoisted index line =>
      intro other depth rest otherRest otherWellFormed same
      have sameForm := form_eq (.hoisted index line) otherWellFormed same
      cases otherWellFormed with
      | hoisted otherIndex otherLine =>
          simp only [Statement.rows, List.cons_append, List.nil_append, List.cons.injEq,
            true_and] at same
          exact ⟨.hoisted trivial, same⟩
      | _ => cases sameForm

/-! ## Functions and programs -/

/-- Result types with the same parts are alike, and so is having none, for then nothing stands after
    the bracket. -/
theorem result_alike {returns others : Option Token}
    (wellFormed : ∀ type ∈ returns, type.Fits (·.kind = .identifier))
    (same : resultParts returns = resultParts others) : Option.Rel Token.Alike returns others := by
  rcases returns with _ | type <;> rcases others with _ | other
  · exact .none
  · cases same
  · cases same
  · simp only [resultParts, List.cons.injEq, and_true, true_and] at same
    exact .some (alike_of_asWord (name_valid (wellFormed type rfl)) same)

/-- Functions that start the same rows are alike, and the same rows follow. The name, the parameters
    and the result type are read from the header. -/
theorem definition_cut {definition other : Definition} {rest otherRest : List Row}
    (wellFormed : definition.WellFormed) (otherWellFormed : other.WellFormed)
    (same : definition.rows ++ rest = other.rows ++ otherRest) :
    definition.Alike AnyNumbers other ∧ rest = otherRest := by
  have cuts : definition.body.Cuts := block_cuts
    (fun statement member => statement_cuts (wellFormed.body statement member)) wellFormed.body
  simp only [Definition.rows, List.cons_append, List.append_assoc] at same
  obtain ⟨sameParts, alike, sameRest⟩ := header_cut cuts otherWellFormed.body rfl rfl same
  simp only [List.cons.injEq, true_and] at sameParts
  obtain ⟨parametersAlike, sameResult⟩ := parameters_cut wellFormed.parameters sameParts.2
  exact ⟨⟨keyword_alike (by decide) wellFormed.keyword otherWellFormed.keyword,
    alike_of_asWord (name_valid wellFormed.name) sameParts.1, parametersAlike,
    result_alike wellFormed.returns sameResult, alike⟩, (List.cons.inj sameRest).2⟩

/-- The rows of the body of a program, as the function `main` at the end of a file. -/
def mainRows (body : List Statement) : List Row :=
  .header 0 [.word "func", .gap, .word "main", .mark "(", .mark ")"] ::
    (Statement.rowsAll 1 body ++ [.close 0])

/-- The body of a program is written as a block under a header, so it can be cut off as one. -/
theorem mainRows_eq (body : List Statement) (line : Nat) :
    mainRows body = .header 0 [.word "func", .gap, .word "main", .mark "(", .mark ")"] ::
      (Block.rows (0 + 1) ⟨line, body⟩ ++ [.close 0]) := by
  rw [mainRows, Block.rows]

/-- A function with more rows after it is not `main`, whatever its name is. -/
theorem mainRows_ne {body : List Statement} {definition : Definition}
    (wellFormed : ∀ statement ∈ body, statement.WellFormed)
    (definitionFormed : definition.WellFormed) (row : Row) (rest later : List Row) :
    mainRows body ≠ definition.rows ++ (rest ++ row :: later) := by
  intro same
  have cuts : (Block.mk 0 body).Cuts :=
    block_cuts (fun statement member => statement_cuts (wellFormed statement member)) wellFormed
  rw [mainRows_eq body 0] at same
  simp only [Definition.rows, List.cons_append, List.append_assoc] at same
  obtain ⟨-, -, sameRest⟩ := header_cut cuts definitionFormed.body rfl rfl same
  simp at sameRest

/-- Functions, each after a blank row, and then `main` are read one by one. The induction is on the
    functions, and the header of `main` ends it. -/
theorem functions_cut {functions others : List Definition} {body otherBody : List Statement}
    (wellFormed : ∀ definition ∈ functions, definition.WellFormed)
    (otherWellFormed : ∀ definition ∈ others, definition.WellFormed)
    (bodyFormed : ∀ statement ∈ body, statement.WellFormed)
    (otherBodyFormed : ∀ statement ∈ otherBody, statement.WellFormed)
    (same : Definition.rowsAll functions ++ .blank :: mainRows body =
      Definition.rowsAll others ++ .blank :: mainRows otherBody) :
    List.Forall₂ (Definition.Alike AnyNumbers) functions others ∧
      Phrase.Alike AnyNumbers (.statements body) (.statements otherBody) := by
  induction functions generalizing others with
  | nil =>
      cases others with
      | nil =>
          obtain ⟨-, sameMain⟩ := List.cons.inj same
          obtain ⟨-, sameRows⟩ := List.cons.inj sameMain
          exact ⟨.nil, (statements_cut
            (fun statement member => statement_cuts (bodyFormed statement member)) bodyFormed
            otherBodyFormed rfl rfl sameRows).1⟩
      | cons other others =>
          simp only [Definition.rowsAll, List.nil_append, List.cons_append, List.append_assoc,
            List.cons.injEq, true_and] at same
          exact absurd same (mainRows_ne bodyFormed (otherWellFormed other (by simp)) _ _ _)
  | cons definition functions ih =>
      rw [List.forall_mem_cons] at wellFormed
      cases others with
      | nil =>
          simp only [Definition.rowsAll, List.nil_append, List.cons_append, List.append_assoc,
            List.cons.injEq, true_and] at same
          exact absurd same.symm (mainRows_ne otherBodyFormed wellFormed.1 _ _ _)
      | cons other others =>
          rw [List.forall_mem_cons] at otherWellFormed
          simp only [Definition.rowsAll, List.cons_append, List.append_assoc, List.cons.injEq,
            true_and] at same
          obtain ⟨alike, later⟩ := definition_cut wellFormed.1 otherWellFormed.1 same
          obtain ⟨functionsAlike, bodyAlike⟩ := ih wellFormed.2 otherWellFormed.2 later
          exact ⟨.cons alike functionsAlike, bodyAlike⟩

/-- Well-formed programs with the same rows are alike, with the same numbers of placeholders, for
    these are settled by the order in which definitions end. -/
theorem program_alike {program other : Program} (wellFormed : program.WellFormed)
    (otherWellFormed : other.WellFormed) (same : program.rows = other.rows) :
    program.Alike Eq other := by
  obtain ⟨-, sameRows⟩ := List.cons.inj same
  obtain ⟨functions, body⟩ := functions_cut wellFormed.functions otherWellFormed.functions
    wellFormed.body otherWellFormed.body sameRows
  exact Program.Alike.same_numbers ⟨body, functions⟩ wellFormed otherWellFormed

/-- Sources have the same text in Go exactly if their programs are alike: the same
    statements in the same blocks, the same functions, and placeholders with the same
    indices, with tokens at the leaves that have one text. -/
theorem emit_eq_iff_alike {source otherSource : List UInt8} {program other : Program}
    (isParsed : (parsed source).outcome = .ok program)
    (isOtherParsed : (parsed otherSource).outcome = .ok other) :
    Go.emit program = Go.emit other ↔ program.Alike Eq other := by
  have wellFormed := parsed_wellFormed isParsed
  have otherWellFormed := parsed_wellFormed isOtherParsed
  obtain ⟨_, _, _, _, derived⟩ := (parsed_ok_iff source program).mp isParsed
  obtain ⟨_, _, _, _, otherDerived⟩ := (parsed_ok_iff otherSource other).mp isOtherParsed
  rw [emit_rows derived, emit_rows otherDerived]
  constructor
  · intro same
    exact program_alike wellFormed otherWellFormed
      (Row.renderAll_inj (program_legible wellFormed) (program_legible otherWellFormed)
        (Except.ok.inj same))
  · intro alike
    rw [alike.rows_eq]

/-- A definition inside a definition, written with different words that have the same
    text, on other lines and after another import clause. -/
theorem emit_eq_iff_alike_nested :
    let token (kind : Kind) (lexeme : String) (line : Nat) : Token := ⟨kind, lexeme, line⟩
    let name (lexeme : String) (line : Nat) : Token := token .identifier lexeme line
    let source := "import GoType\ndef f():\n    def g():\n        print(None)\n"
    let otherSource := "from GoType import *\n\ndef f():\n    def g():\n        println(nil)\n"
    let program : Program :=
      ⟨⟨name "GoType" 1, none, 1⟩, [.hoisted 1 2],
        [⟨token .defWord "def" 3, name "g" 3, [], none,
            ⟨3, [.call (token .print "print" 4) [.terminal (token .nullLiteral "None" 4)]]⟩⟩,
          ⟨token .defWord "def" 2, name "f" 2, [], none, ⟨2, [.hoisted 0 3]⟩⟩]⟩
    let other : Program :=
      ⟨⟨name "GoType" 1, some (token .star "*" 1), 1⟩, [.hoisted 1 3],
        [⟨token .defWord "def" 4, name "g" 4, [], none,
            ⟨4, [.call (name "println" 5) [.terminal (name "nil" 5)]]⟩⟩,
          ⟨token .defWord "def" 3, name "f" 3, [], none, ⟨3, [.hoisted 0 4]⟩⟩]⟩
    (parsed (Utf8.encode source)).outcome = .ok program ∧
      (parsed (Utf8.encode otherSource)).outcome = .ok other ∧
      Go.emit program = Go.emit other ∧ program.Alike Eq other := by
  intro token name source otherSource program other
  have isParsed : (parsed (Utf8.encode source)).outcome = .ok program := by
    dsimp only [source, program, name, token]
    cbv
  have isOtherParsed : (parsed (Utf8.encode otherSource)).outcome = .ok other := by
    dsimp only [otherSource, other, name, token]
    cbv
  have same : Go.emit program = Go.emit other := rfl
  exact ⟨isParsed, isOtherParsed, same, (emit_eq_iff_alike isParsed isOtherParsed).mp same⟩

end Offside
