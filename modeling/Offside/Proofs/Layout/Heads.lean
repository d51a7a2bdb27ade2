import Mathlib.Data.Int.Basic
import Offside.Proofs.Syntax.Derivation

/-!
# Heads of lines

How deep a token stands can be told without reading the grammar: a colon at the end
of a line opens a block, and a block end closes one. A cursor keeps this count along
the tokens, and what it has met since the last line break or block end. The heads
are the tokens that come first after one of those; they carry the cursor that met
them.

Depths are integers here. A token list that no program stands for may close more
blocks than it opens, and nothing is to be read into that.
-/

namespace Offside

/-- What is known before a token. -/
@[ext]
structure Cursor where
  /-- The blocks opened and not closed. -/
  depth : Int
  /-- The kind of the last token that is neither a line break nor a block end. -/
  ending : Kind
  /-- A block end stands after that token. -/
  closed : Bool
  /-- A line break or a block end stands after that token. -/
  fresh : Bool
  deriving DecidableEq, Repr

namespace Cursor

/-- The cursor after one more token. -/
def step (cursor : Cursor) (token : Token) : Cursor :=
  match token.kind with
  | .newline =>
      ⟨if cursor.fresh = false ∧ cursor.ending = .colon then cursor.depth + 1 else cursor.depth,
        cursor.ending, cursor.closed, true⟩
  | .closeBlock => ⟨cursor.depth - 1, cursor.ending, true, true⟩
  | kind => ⟨cursor.depth, kind, false, false⟩

/-- The cursor after more tokens. -/
def run (cursor : Cursor) (tokens : List Token) : Cursor :=
  tokens.foldl step cursor

/-- The cursor at the start of the tokens. -/
def start : Cursor :=
  ⟨0, .newline, false, true⟩

/-- No token moves the cursor. -/
@[simp]
theorem run_nil (cursor : Cursor) : cursor.run [] = cursor :=
  rfl

/-- The cursor moves token by token, from the first on, so a stretch is run through by its first
    token and then by the others. -/
@[simp]
theorem run_cons (cursor : Cursor) (token : Token) (tokens : List Token) :
    cursor.run (token :: tokens) = (cursor.step token).run tokens :=
  rfl

/-- A stretch of tokens can be run through in two parts, the second from where the first has led
    to. -/
theorem run_append (cursor : Cursor) (first second : List Token) :
    cursor.run (first ++ second) = (cursor.run first).run second :=
  List.foldl_append

end Cursor

/-- A token that stands on a line: no line break and no block end. -/
def Token.Inline (token : Token) : Prop :=
  token.kind ≠ .newline ∧ token.kind ≠ .closeBlock

instance : DecidablePred Token.Inline :=
  fun token => inferInstanceAs (Decidable (token.kind ≠ .newline ∧ token.kind ≠ .closeBlock))

/-- All tokens stand on one line. -/
def Inline (tokens : List Token) : Prop :=
  ∀ token ∈ tokens, token.Inline

/-- The tokens that come first after a line break or a block end, each with the
    cursor before it. -/
def heads (cursor : Cursor) : List Token → List (Cursor × Token)
  | [] => []
  | token :: tokens =>
      if cursor.fresh = true ∧ token.Inline then
        (cursor, token) :: heads (cursor.step token) tokens
      else heads (cursor.step token) tokens

/-- The heads of two stretches are those of the first and then those of the second, met by the
    cursor that has run through the first. Whether the first token of the second is a head depends
    on that cursor. -/
theorem heads_append (cursor : Cursor) (first second : List Token) :
    heads cursor (first ++ second) = heads cursor first ++ heads (cursor.run first) second := by
  induction first generalizing cursor with
  | nil => rfl
  | cons token first ih =>
      rw [List.cons_append, heads, heads, Cursor.run_cons, ih]
      split
      · rfl
      · rfl

/-! ## Stretches -/

/-- After a token on a line the depth is the old one, and the kind of the token is remembered for
    the end of the line. -/
theorem Cursor.step_inline (cursor : Cursor) {token : Token} (isInline : token.Inline) :
    cursor.step token = ⟨cursor.depth, token.kind, false, false⟩ := by
  obtain ⟨notBreak, notClose⟩ := isInline
  unfold step
  split
  · contradiction
  · contradiction
  · rfl

/-- A line break right after another one, or after a block end, changes nothing. A colon that was
    met before is not counted twice. -/
theorem Cursor.step_break {cursor : Cursor} (fresh : cursor.fresh = true) {token : Token}
    (isBreak : token.kind = .newline) : cursor.step token = cursor := by
  obtain ⟨depth, ending, closed, isFresh⟩ := cursor
  subst fresh
  simp [step, isBreak]

/-- A block end leaves one block, whatever came before it, and what stands after it is fresh. -/
theorem Cursor.step_close (cursor : Cursor) {token : Token} (isClose : token.kind = .closeBlock) :
    cursor.step token = ⟨cursor.depth - 1, cursor.ending, true, true⟩ := by
  simp [step, isClose]

/-- On a line the depth does not change, and no head comes after the first token. -/
theorem heads_inline {tokens : List Token} (isInline : Inline tokens) {cursor : Cursor}
    (inside : cursor.fresh = false) :
    heads cursor tokens = [] ∧ (cursor.run tokens).fresh = false ∧
      (cursor.run tokens).depth = cursor.depth := by
  induction tokens generalizing cursor with
  | nil => exact ⟨rfl, inside, rfl⟩
  | cons token tokens ih =>
      have step := cursor.step_inline (isInline token (by simp))
      have later := ih (fun other member => isInline other (List.mem_cons_of_mem token member))
        (show (cursor.step token).fresh = false by rw [step])
      rw [step] at later
      rw [heads, if_neg (by simp [inside]), Cursor.run_cons, step]
      exact later

/-- After a line's last token the cursor has its kind, which says whether the line has opened a
    block. -/
theorem ending_run_inline {tokens : List Token} (isInline : Inline tokens) (last : Token)
    (isLast : tokens.getLast? = some last) (cursor : Cursor) :
    (cursor.run tokens).ending = last.kind ∧ (cursor.run tokens).closed = false := by
  obtain ⟨front, rfl⟩ := List.getLast?_eq_some_iff.mp isLast
  rw [Cursor.run_append, Cursor.run_cons, Cursor.run_nil,
    Cursor.step_inline _ (isInline last (by simp))]
  exact ⟨rfl, rfl⟩

/-- The first token of a line is its only head, and at its end the cursor has the
    kind of the last one. -/
theorem heads_line {first : Token} {more : List Token} (isInline : Inline (first :: more))
    {cursor : Cursor} (fresh : cursor.fresh = true) :
    ∃ last, (first :: more).getLast? = some last ∧
      heads cursor (first :: more) = [(cursor, first)] ∧
      cursor.run (first :: more) = ⟨cursor.depth, last.kind, false, false⟩ := by
  have firstInline := isInline first (by simp)
  have step := cursor.step_inline firstInline
  obtain ⟨noMore, inside, sameDepth⟩ :=
    heads_inline (fun other member => isInline other (List.mem_cons_of_mem first member))
      (show (cursor.step first).fresh = false by rw [step])
  obtain ⟨last, isLast⟩ : ∃ last, (first :: more).getLast? = some last :=
    ⟨_, List.getLast?_eq_some_getLast (List.cons_ne_nil first more)⟩
  obtain ⟨ending, notClosed⟩ := ending_run_inline isInline last isLast cursor
  refine ⟨last, isLast, ?_, ?_⟩
  · rw [heads, if_pos ⟨fresh, firstInline⟩, noMore]
  · rw [Cursor.run_cons] at ending notClosed ⊢
    rw [step] at sameDepth
    exact Cursor.ext (by rw [step]; exact sameDepth) ending notClosed inside

/-- Line breaks after a line break or a block end change nothing, however many they are. -/
theorem heads_breaks {gap : List Token} (breaks : Grammar.Breaks gap) {cursor : Cursor}
    (fresh : cursor.fresh = true) : heads cursor gap = [] ∧ cursor.run gap = cursor := by
  induction gap with
  | nil => exact ⟨rfl, rfl⟩
  | cons token gap ih =>
      have isBreak := breaks token (by simp)
      have later := ih fun other member => breaks other (List.mem_cons_of_mem token member)
      have notInline : ¬ token.Inline := fun isInline => isInline.1 isBreak
      rw [heads, if_neg (by simp [notInline]), Cursor.run_cons, Cursor.step_break fresh isBreak]
      exact later

/-! ## Stretches of the grammar -/

namespace Grammar

/-- A literal stands on a line and is no colon, so no block is opened behind it. -/
theorem Literal.inline {token : Token} (isLiteral : Literal token) :
    token.Inline ∧ token.kind ≠ .colon := by
  simp only [Literal, List.mem_cons, List.not_mem_nil, or_false] at isLiteral
  rcases isLiteral with isKind | isKind | isKind | isKind <;> simp [Token.Inline, isKind]

/-- An operand stands on its line and opens no block, for it is a name or a literal. -/
theorem Operand.inline {token : Token} (isOperand : Operand token) :
    token.Inline ∧ token.kind ≠ .colon := by
  rcases isOperand with isName | isLiteral
  · simp [Token.Inline, isName]
  · exact isLiteral.inline

/-- A token put in front of tokens on one line stands on that line with them. -/
theorem inline_cons {token : Token} {tokens : List Token} (first : token.Inline)
    (rest : Inline tokens) : Inline (token :: tokens) := by
  intro other member
  rcases List.mem_cons.mp member with rfl | member
  · exact first
  · exact rest other member

/-- Two stretches of one line, one after the other, are a stretch of one line. -/
theorem inline_append {first second : List Token} (leading : Inline first)
    (following : Inline second) : Inline (first ++ second) := by
  intro token member
  rcases List.mem_append.mp member with member | member
  · exact leading token member
  · exact following token member

/-- A token of a kind that is neither that of a line break nor that of a block end. -/
theorem inline_of_kind {token : Token} {kind : Kind} (isKind : token.kind = kind)
    (notBreak : kind ≠ .newline) (notClose : kind ≠ .closeBlock) : token.Inline := by
  subst isKind
  exact ⟨notBreak, notClose⟩

/-- What starts a statement stands on a line. No statement starts with a line break or a block
    end. -/
theorem StartsStatement.inline {token : Token} (starts : StartsStatement token) :
    token.Inline := by
  simp only [StartsStatement, List.mem_cons, List.not_mem_nil, or_false] at starts
  rcases starts with kind | kind | kind | kind | kind | kind | kind <;> simp [Token.Inline, kind]

/-- The tokens stand on one line, and the last of them is no colon. -/
def Plain (tokens : List Token) : Prop :=
  Inline tokens ∧ ∃ last, tokens.getLast? = some last ∧ last.kind ≠ .colon

/-- An expression stands on one line and does not end in a colon. Its last token is an operand. -/
theorem expression_plain {tokens : List Token} {expression : Expression}
    (derived : ExpressionOf tokens expression) : Plain tokens := by
  cases derived with
  | operand left isOperand =>
      exact ⟨by simpa [Inline] using isOperand.inline.1, left, rfl, isOperand.inline.2⟩
  | operation left operator right leftOperand isOperator rightOperand =>
      have operatorInline : operator.Inline := by
        simp only [Operator, List.mem_cons, List.not_mem_nil, or_false] at isOperator
        rcases isOperator with isKind | isKind | isKind | isKind | isKind <;>
          simp [Token.Inline, isKind]
      exact ⟨by simpa [Inline] using ⟨leftOperand.inline.1, operatorInline, rightOperand.inline.1⟩,
        right, rfl, rightOperand.inline.2⟩

/-- A condition stands on one line. In front of a block the colon comes after it and belongs to the
    block. -/
theorem comparison_inline {tokens : List Token} {comparison : Comparison}
    (derived : ComparisonOf tokens comparison) : Inline tokens := by
  cases derived with
  | expression tokens left leftSide => exact (expression_plain leftSide).1
  | compared leftTokens rightTokens comparator left right leftSide isComparator rightSide =>
      have comparatorInline : comparator.Inline := by
        simp only [Comparator, List.mem_cons, List.not_mem_nil, or_false] at isComparator
        rcases isComparator with isKind | isKind | isKind | isKind | isKind | isKind <;>
          simp [Token.Inline, isKind]
      exact inline_append (expression_plain leftSide).1
        (inline_cons comparatorInline (expression_plain rightSide).1)

/-- A list of items with commas between them stands on one line if all of its items do, by induction
    on the list. -/
theorem listed_inline {items : List (List Token)} {tokens : List Token}
    (listed : Listed items tokens) (inside : ∀ item ∈ items, Inline item) : Inline tokens := by
  induction listed with
  | none => simp [Inline]
  | one item => exact inside item (by simp)
  | more item next items comma tokens isComma later ih =>
      exact inline_append (inside item (by simp))
        (inline_cons (inline_of_kind isComma (by decide) (by decide))
          (ih fun other member => inside other (List.mem_cons_of_mem item member)))

/-- An argument stands on one line, however deep calls nest in it, and ends in an operand or a
    closing parenthesis. -/
theorem argument_plain {tokens : List Token} {value : Value} (derived : ArgumentOf tokens value) :
    Plain tokens := by
  induction derived with
  | operand token isOperand =>
      exact ⟨by simpa [Inline] using isOperand.inline.1, token, rfl, isOperand.inline.2⟩
  | call callee left right parts inner isCallee opens closes listed derived ih =>
      have calleeInline : callee.Inline := by
        rcases isCallee with isKind | isKind
        · exact inline_of_kind isKind (by decide) (by decide)
        · exact inline_of_kind isKind (by decide) (by decide)
      have innerInline : Inline inner := by
        apply listed_inline listed
        intro item isItem
        obtain ⟨part, isPart, rfl⟩ := List.mem_map.mp isItem
        exact (ih part isPart).1
      have rightInline : right.Inline := inline_of_kind closes (by decide) (by decide)
      refine ⟨inline_cons calleeInline (inline_cons (inline_of_kind opens (by decide) (by decide))
        (inline_append innerInline (by simpa [Inline] using rightInline))), right, ?_, ?_⟩
      · simp [List.getLast?_cons]
      · rw [closes]
        decide

/-- The initial value of a declaration stands on one line and does not end with a colon, whether it
    is a literal or a call. -/
theorem initial_plain {tokens : List Token} {value : Value} (derived : InitialOf tokens value) :
    Plain tokens := by
  cases derived with
  | call tokens callee arguments derived => exact argument_plain derived
  | literal token isLiteral =>
      exact ⟨by simpa [Inline] using isLiteral.inline.1, token, rfl, isLiteral.inline.2⟩

/-- A token in front of a plain stretch leaves its end as it is. -/
theorem plain_cons {token : Token} {tokens : List Token} (first : token.Inline)
    (rest : Plain tokens) : Plain (token :: tokens) := by
  obtain ⟨isInline, last, isLast, notColon⟩ := rest
  exact ⟨inline_cons first isInline, last, by simp [List.getLast?_cons, isLast], notColon⟩

/-- A simple statement stands on one line and does not end in a colon. So the line break after it
    opens no block. -/
theorem simple_plain {tokens : List Token} {statement : Statement}
    (derived : SimpleOf tokens statement) : Plain tokens := by
  cases derived with
  | declaration name colon type assign tokens value isName isColon isType isAssign initial =>
      exact plain_cons (inline_of_kind isName (by decide) (by decide))
        (plain_cons (inline_of_kind isColon (by decide) (by decide))
          (plain_cons (inline_of_kind isType (by decide) (by decide))
            (plain_cons (inline_of_kind isAssign (by decide) (by decide)) (initial_plain initial))))
  | manipulation target assign tokens value isTarget isAssign assigned =>
      exact plain_cons (inline_of_kind isTarget (by decide) (by decide))
        (plain_cons (inline_of_kind isAssign (by decide) (by decide)) (expression_plain assigned))
  | call tokens callee arguments derived => exact argument_plain derived
  | returnValue keyword value isReturn isOperand =>
      exact plain_cons (inline_of_kind isReturn (by decide) (by decide))
        ⟨by simpa [Inline] using isOperand.inline.1, value, rfl, isOperand.inline.2⟩

/-- Parameters stand on one line with the commas between them, so there is no head among them. -/
theorem parameters_inline {tokens : List Token} {parameters : List Parameter}
    (derived : ParametersOf tokens parameters) : Inline tokens := by
  obtain ⟨parts, listed, derived, rfl⟩ := derived
  apply listed_inline listed
  intro item isItem
  obtain ⟨⟨partTokens, parameter⟩, isPart, rfl⟩ := List.mem_map.mp isItem
  cases derived _ isPart with
  | typed name colon type isName isColon isType =>
      simp [Inline, Token.Inline, isName, isColon, isType]

/-- The result type of a function stands on one line with its arrow, if there is one. -/
theorem result_inline {tokens : List Token} {returns : Option Token}
    (derived : ResultOf tokens returns) : Inline tokens := by
  cases derived with
  | missing => simp [Inline]
  | null arrow type isArrow isNull => simp [Inline, Token.Inline, isArrow, isNull]
  | named arrow type isArrow isName => simp [Inline, Token.Inline, isArrow, isName]

/-- The header of a loop over a range stands on one line, after its keyword. -/
theorem rangeHeader_inline {counter inside range left start comma stop right : Token}
    (isCounter : counter.kind = .identifier) (isIn : inside.kind = .inWord)
    (isRange : range.kind = .range) (opens : left.kind = .leftParen) (startBound : Bound start)
    (isComma : comma.kind = .comma) (stopBound : Bound stop) (closes : right.kind = .rightParen) :
    Inline [counter, inside, range, left, start, comma, stop, right] := by
  have bound {token : Token} (isBound : Bound token) : token.Inline := by
    rcases isBound with isKind | isKind <;> simp [Token.Inline, isKind]
  simpa [Inline, Token.Inline, isCounter, isIn, isRange, opens, isComma, closes] using
    ⟨bound startBound, bound stopBound⟩

/-- The header of a definition stands on one line, after its keyword. -/
theorem definitionHeader_inline {name left right : Token} {inner resultTokens : List Token}
    {parameters : List Parameter} {returns : Option Token} (isName : name.kind = .identifier)
    (opens : left.kind = .leftParen) (listed : ParametersOf inner parameters)
    (closes : right.kind = .rightParen) (result : ResultOf resultTokens returns) :
    Inline (name :: left :: (inner ++ right :: resultTokens)) :=
  inline_cons (inline_of_kind isName (by decide) (by decide))
    (inline_cons (inline_of_kind opens (by decide) (by decide))
      (inline_append (parameters_inline listed)
        (inline_cons (inline_of_kind closes (by decide) (by decide)) (result_inline result))))

/-- The import clause stands on one line as well, and no block follows it. -/
theorem import_plain {tokens : List Token} {clause : ImportClause}
    (derived : ImportOf tokens clause) : Plain tokens := by
  cases derived with
  | whole keyword module isImport isName isRuntime =>
      exact ⟨by simp [Inline, Token.Inline, isImport, isName], module, rfl, by simp [isName]⟩
  | part keyword module importing item isFrom isName isRuntime isImport isItem =>
      rcases isItem with isStar | isItem
      · exact ⟨by simp [Inline, Token.Inline, isFrom, isName, isImport, isStar], item, rfl,
          by simp [isStar]⟩
      · exact ⟨by simp [Inline, Token.Inline, isFrom, isName, isImport, isItem], item, rfl,
          by simp [isItem]⟩

end Grammar

end Offside
