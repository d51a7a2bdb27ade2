import Mathlib.Data.List.Basic
import Offside.Go.Emit
import Offside.Proofs.Syntax.Derivation

/-!
# The rows of a Go file

Emission writes text, and text does not show what it was put together from. Here
the lines of a Go file are lists of parts: words, marks and the blanks between
them. Which parts a tree has is said without failure, so it is said of trees that
cannot be emitted as well.

For a tree that tokens stand for, emission gives exactly the text of its parts.
Every leaf of such a tree has a kind that the grammar admits at its place, and all
of these have a spelling in Go.
-/

namespace Offside

open Grammar

namespace Go

/-- What a line of Go is put together from. -/
inductive Part where
  /-- A name, a literal or a keyword. -/
  | word (text : String)
  /-- An operator or a delimiter. -/
  | mark (text : String)
  /-- One blank. -/
  | gap
  deriving DecidableEq, Repr

namespace Part

/-- The text of a part. -/
def text : Part → String
  | word text => text
  | mark text => text
  | gap => " "

/-- The text of parts that stand one after another. -/
def textAll : List Part → String
  | [] => ""
  | part :: parts => part.text ++ textAll parts

/-- The text of parts in two stretches is that of the first followed by that of the second, by
    induction on the first. -/
@[simp]
theorem textAll_append (parts others : List Part) :
    textAll (parts ++ others) = textAll parts ++ textAll others := by
  induction parts with
  | nil => simp [textAll]
  | cons part parts ih => simp [textAll, ih, String.append_assoc]

/-- Items with a comma and a blank between neighbours. -/
def separated : List (List Part) → List Part
  | [] => []
  | [item] => item
  | item :: next :: items => item ++ mark "," :: gap :: separated (next :: items)

/-- The text of items with commas between them is that of each item, with a comma and a blank
    between neighbours, as emission joins them. -/
theorem textAll_separated (items : List (List Part)) :
    textAll (separated items) = String.intercalate ", " (items.map textAll) := by
  induction items with
  | nil => rfl
  | cons item items ih =>
      cases items with
      | nil => simp [separated]
      | cons next items =>
          have comma : ", " = "," ++ " " := rfl
          rw [List.map_cons, List.map_cons, String.intercalate_cons_cons, ← List.map_cons, ← ih,
            separated, textAll_append, comma]
          simp only [textAll, text, String.append_assoc]

end Part

/-- A line of Go before its parts are written out. -/
inductive Row where
  | blank
  | code (depth : Nat) (parts : List Part)
  deriving DecidableEq, Repr

/-- A row written out. -/
def Row.line : Row → Line
  | blank => .blank
  | code depth parts => .code depth (Part.textAll parts)

/-- The row that ends a block. -/
def Row.close (depth : Nat) : Row :=
  .code depth [.mark "\x7d"]

/-- A header of a block. -/
def Row.header (depth : Nat) (parts : List Part) : Row :=
  .code depth (parts ++ [.gap, .mark "\x7b"])

/-- The row that ends a block is written as a closing brace alone. -/
@[simp]
theorem Row.line_close (depth : Nat) : (Row.close depth).line = .code depth "\x7d" := rfl

/-- A header is written as its parts with a blank and an opening brace behind them. -/
@[simp]
theorem Row.line_header (depth : Nat) (parts : List Part) :
    (Row.header depth parts).line = .code depth (Part.textAll parts ++ " \x7b") := by
  rw [Row.header, Row.line, Part.textAll_append]
  rfl

/-- The spelling of a token that has one. -/
def spelling (token : Token) : String :=
  (spelling? token).getD ""

end Go

open Go

/-- A token that stands as a word. -/
def Token.asWord (token : Token) : Part :=
  .word (spelling token)

/-- A token that stands as a mark. -/
def Token.asMark (token : Token) : Part :=
  .mark (spelling token)

/-- The parts of an expression. -/
def Expression.parts : Expression → List Part
  | ⟨left, none⟩ => [left.asWord]
  | ⟨left, some (operator, right)⟩ => [left.asWord, .gap, operator.asMark, .gap, right.asWord]

/-- The parts of a condition. -/
def Comparison.parts : Comparison → List Part
  | ⟨left, none⟩ => left.parts
  | ⟨left, some (comparator, right)⟩ =>
      left.parts ++ .gap :: comparator.asMark :: .gap :: right.parts

mutual

/-- The parts of a value. -/
def Value.parts : Value → List Part
  | .terminal token => [token.asWord]
  | .call callee arguments =>
      callee.asWord :: .mark "(" :: (Part.separated (Value.partsAll arguments) ++ [.mark ")"])

/-- The parts of each of several values. -/
def Value.partsAll : List Value → List (List Part)
  | [] => []
  | value :: values => value.parts :: Value.partsAll values

end

/-- The words between two branches of a chain. -/
def Go.elseIf : List Part :=
  [.mark "\x7d", .gap, .word "else", .gap, .word "if"]

mutual

/-- The rows of a statement at depth `depth`. -/
def Statement.rows (depth : Nat) : Statement → List Row
  | .declaration name type value =>
      [.code depth ([.word "var", .gap, name.asWord, .gap, type.asWord, .gap, .mark "=", .gap] ++
        value.parts)]
  | .manipulation target value =>
      [.code depth (target.asWord :: .gap :: .mark "=" :: .gap :: value.parts)]
  | .call callee arguments => [.code depth (Value.call callee arguments).parts]
  | .returnValue _ value => [.code depth [.word "return", .gap, value.asWord]]
  | .forRange _ counter start stop body =>
      .header depth [.word "for", .gap, counter.asWord, .gap, .mark ":=", .gap, start.asWord,
          .mark ";", .gap, counter.asWord, .gap, .mark "<", .gap, stop.asWord, .mark ";", .gap,
          counter.asWord, .mark "++"] ::
        (Block.rows (depth + 1) body ++ [.close depth])
  | .whileLoop _ condition body =>
      .header depth (.word "for" :: .gap :: condition.parts) ::
        (Block.rows (depth + 1) body ++ [.close depth])
  | .ifChain branches otherwise =>
      Branch.rowsAll depth [.word "if"] branches ++
        ((match otherwise with
          | none => []
          | some body =>
              .header depth [.mark "\x7d", .gap, .word "else"] :: Block.rows (depth + 1) body) ++
          [.close depth])
  | .hoisted _ _ => [.blank]

/-- The rows of a block at depth `depth`. -/
def Block.rows (depth : Nat) : Block Statement → List Row
  | ⟨_, statements⟩ => Statement.rowsAll depth statements

/-- The rows of the branches of a chain. `opening` stands before the condition of the
    first. -/
def Branch.rowsAll (depth : Nat) (opening : List Part) : List (Branch Statement) → List Row
  | [] => []
  | ⟨_, condition, body⟩ :: branches =>
      .header depth (opening ++ .gap :: condition.parts) ::
        (Block.rows (depth + 1) body ++ Branch.rowsAll depth elseIf branches)

/-- The rows of several statements of one list. -/
def Statement.rowsAll (depth : Nat) : List Statement → List Row
  | [] => []
  | statement :: statements => statement.rows depth ++ Statement.rowsAll depth statements

end

/-- The parts of a parameter. -/
def Parameter.parts (parameter : Parameter) : List Part :=
  [parameter.name.asWord, .gap, parameter.type.asWord]

/-- The parts of a result type, after the parameters. -/
def resultParts : Option Token → List Part
  | none => []
  | some type => [.gap, type.asWord]

/-- The rows of a function. -/
def Definition.rows (definition : Definition) : List Row :=
  .header 0 (.word "func" :: .gap :: definition.name.asWord :: .mark "(" ::
      (Part.separated (definition.parameters.map Parameter.parts) ++
        .mark ")" :: resultParts definition.returns)) ::
    (Block.rows 1 definition.body ++ [.close 0])

/-- The rows of all functions, each after a blank row. -/
def Definition.rowsAll : List Definition → List Row
  | [] => []
  | definition :: definitions => .blank :: (definition.rows ++ Definition.rowsAll definitions)

/-- The rows of a whole file: the functions, and then the body as `main`. -/
def Program.rows (program : Program) : List Row :=
  .code 0 [.word "package", .gap, .word "main"] ::
    (Definition.rowsAll program.functions ++
      (.blank :: .header 0 [.word "func", .gap, .word "main", .mark "(", .mark ")"] ::
        (Statement.rowsAll 1 program.body ++ [.close 0])))

namespace Go.Emit

variable {α β : Type}

/-- Emission succeeds with this value, wherever it stands. -/
def Gives (emit : Emit α) (value : α) : Prop :=
  ∀ trail, emit trail = .ok value

/-- What does nothing but return a value gives this value. -/
theorem gives_pure (value : α) : Gives (pure value) value :=
  fun _ => rfl

/-- Returning a value gives any value that is known to be the same, so a result may be said in
    another form. -/
theorem gives_of_eq {value other : α} (same : value = other) : Gives (pure value) other :=
  same ▸ gives_pure value

/-- If a first step gives a value and the second one, taken with this value, a result, both together
    give the result. The trail may be any for both. -/
theorem Gives.bind {emit : Emit α} {next : α → Emit β} {value : α} {result : β}
    (first : Gives emit value) (second : Gives (next value) result) :
    Gives (emit >>= next) result := by
  intro trail
  change Except.bind (emit trail) (fun value => next value trail) = _
  rw [first trail]
  exact second trail

/-- A step inside a named one is given a longer trail, which makes no difference for what succeeds
    on every trail. -/
theorem Gives.step {name : String} {emit : Emit α} {value : α} (inside : Gives emit value) :
    Gives (Emit.step name emit) value :=
  fun trail => inside (trail ++ [name])

/-- Emission of a list gives the values of its items in order if emission of each item gives its
    value. The induction is on the list. -/
theorem gives_mapM {items : List α} {emit : α → Emit β} {value : α → β}
    (each : ∀ item ∈ items, Gives (emit item) (value item)) :
    Gives (items.mapM emit) (items.map value) := by
  induction items with
  | nil =>
      rw [List.mapM_nil]
      exact gives_pure []
  | cons item items ih =>
      rw [List.mapM_cons]
      exact (each item (by simp)).bind
        ((ih fun other member => each other (List.mem_cons_of_mem item member)).bind
          (gives_pure _))

/-! ## Leaves -/

/-- A token with a spelling is emitted as this spelling, whatever stands around it. -/
theorem gives_text {token : Token} {text : String} (spelled : spelling? token = some text) :
    Gives (Emit.text token) text := by
  intro trail
  simp only [Emit.text, spelled]
  rfl

/-- A token is emitted as its spelling if it has one, which the lemmas below settle by its kind. -/
theorem gives_spelling {token : Token} (spelled : (spelling? token).isSome) :
    Gives (Emit.text token) (spelling token) := by
  obtain ⟨text, found⟩ := Option.isSome_iff_exists.mp spelled
  have same : spelling token = text := by simp [spelling, found]
  rw [same]
  exact gives_text found

/-- A name is emitted, as every identifier has its own text for a spelling in Go. -/
theorem gives_name {token : Token} (isName : token.kind = .identifier) :
    Gives (Emit.text token) (spelling token) :=
  gives_spelling (by simp [spelling?, isName])

/-- A literal has a spelling in Go, be it a number, a text or a truth value. -/
theorem gives_literal {token : Token} (isLiteral : Literal token) :
    Gives (Emit.text token) (spelling token) := by
  apply gives_spelling
  simp only [Literal, List.mem_cons, List.not_mem_nil, or_false] at isLiteral
  rcases isLiteral with kind | kind | kind | kind <;> simp [spelling?, kind]

/-- An operand is a name or a literal, so it is emitted. -/
theorem gives_operand {token : Token} (isOperand : Operand token) :
    Gives (Emit.text token) (spelling token) := by
  rcases isOperand with isName | isLiteral
  · exact gives_name isName
  · exact gives_literal isLiteral

/-- A bound of a range is emitted, for it is a name or a number. -/
theorem gives_bound {token : Token} (isBound : Bound token) :
    Gives (Emit.text token) (spelling token) := by
  apply gives_spelling
  rcases isBound with kind | kind <;> simp [spelling?, kind]

/-- A callee is emitted: `print` has a spelling of its own, and any other is a name. -/
theorem gives_callee {token : Token} (isCallee : Callee token) :
    Gives (Emit.text token) (spelling token) := by
  apply gives_spelling
  rcases isCallee with kind | kind <;> simp [spelling?, kind]

/-- An operator is emitted, as all five operators of arithmetic have a spelling in Go. -/
theorem gives_operator {token : Token} (isOperator : Operator token) :
    Gives (Emit.text token) (spelling token) := by
  apply gives_spelling
  simp only [Operator, List.mem_cons, List.not_mem_nil, or_false] at isOperator
  rcases isOperator with kind | kind | kind | kind | kind <;> simp [spelling?, kind]

/-- A comparator is emitted, as all six comparators have a spelling in Go. -/
theorem gives_comparator {token : Token} (isComparator : Comparator token) :
    Gives (Emit.text token) (spelling token) := by
  apply gives_spelling
  simp only [Comparator, List.mem_cons, List.not_mem_nil, or_false] at isComparator
  rcases isComparator with kind | kind | kind | kind | kind | kind <;> simp [spelling?, kind]

/-! ## Parts of a line -/

/-- An expression that tokens stand for is emitted as its parts, for its operands and its operator
    all have kinds with a spelling. -/
theorem gives_expression {tokens : List Token} {value : Expression}
    (derived : ExpressionOf tokens value) :
    Gives (Emit.expression value) (Part.textAll value.parts) := by
  cases derived with
  | operand left isOperand =>
      refine (gives_operand isOperand).bind ?_
      simpa [Expression.parts, Part.textAll, Token.asWord, Part.text] using gives_pure _
  | operation left operator right leftOperand isOperator rightOperand =>
      refine (gives_operand leftOperand).bind
        ((gives_operator isOperator).bind ((gives_operand rightOperand).bind ?_))
      simpa [Expression.parts, Part.textAll, Token.asWord, Token.asMark, Part.text,
        String.append_assoc] using gives_pure _

/-- A condition that tokens stand for is emitted as its parts, from what is known of the expressions
    on both sides. -/
theorem gives_comparison {tokens : List Token} {condition : Comparison}
    (derived : ComparisonOf tokens condition) :
    Gives (Emit.comparison condition) (Part.textAll condition.parts) := by
  cases derived with
  | expression tokens left leftSide => exact (gives_expression leftSide).bind (gives_pure _)
  | compared leftTokens rightTokens comparator left right leftSide isComparator rightSide =>
      refine (gives_expression leftSide).bind
        ((gives_comparator isComparator).bind ((gives_expression rightSide).bind ?_))
      simpa [Comparison.parts, Part.textAll, Token.asMark, Part.text, String.append_assoc] using
        gives_pure _

/-- Values that are emitted one by one are emitted together. This is the recursion of emission,
    which goes through calls. -/
theorem gives_values {values : List Value}
    (each : ∀ value ∈ values, Gives (Emit.value value) (Part.textAll value.parts)) :
    Gives (Emit.values values) ((Value.partsAll values).map Part.textAll) := by
  induction values with
  | nil =>
      simp only [Emit.values, Value.partsAll]
      exact gives_pure []
  | cons value values ih =>
      simp only [Emit.values, Value.partsAll]
      exact (each value (by simp)).bind
        ((ih fun other member => each other (List.mem_cons_of_mem value member)).bind
          (gives_pure _))

/-- An argument that tokens stand for is emitted as its parts. The induction is on how it is
    derived, so the arguments of a call have been treated before it. -/
theorem gives_argument {tokens : List Token} {value : Value} (derived : ArgumentOf tokens value) :
    Gives (Emit.value value) (Part.textAll value.parts) := by
  induction derived with
  | operand token isOperand =>
      simp only [Emit.value]
      simpa [Value.parts, Part.textAll, Token.asWord, Part.text] using gives_operand isOperand
  | call callee left right parts inner isCallee opens closes listed derived ih =>
      have arguments : Gives (Emit.values (parts.map Prod.snd))
          ((Value.partsAll (parts.map Prod.snd)).map Part.textAll) := by
        apply gives_values
        intro value member
        obtain ⟨part, isPart, rfl⟩ := List.mem_map.mp member
        exact ih part isPart
      simp only [Emit.value]
      refine (gives_callee isCallee).bind (arguments.bind ?_)
      rw [← Part.textAll_separated]
      simpa [Value.parts, Part.textAll, Token.asWord, Part.text, String.append_assoc] using
        gives_pure _

/-- The initial value of a declaration is emitted as its parts, whether it is an expression or a
    call. -/
theorem gives_initial {tokens : List Token} {value : Value} (derived : InitialOf tokens value) :
    Gives (Emit.value value) (Part.textAll value.parts) := by
  cases derived with
  | call tokens callee arguments derived => exact gives_argument derived
  | literal token isLiteral => exact gives_argument (.operand token (.inr isLiteral))

/-! ## Statements -/

/-- Emission succeeds with the lines of these rows. -/
def GivesRows (emit : Emit (List Line)) (rows : List Row) : Prop :=
  Gives emit (rows.map Row.line)

/-- Emission of a phrase succeeds with its rows, at every depth. -/
def PhraseGives : Phrase → Prop
  | .block body => ∀ depth, GivesRows (Emit.block depth body) (body.rows depth)
  | .continuation branches otherwise =>
      (∀ depth, GivesRows (Emit.branches depth "\x7d " branches)
        (Branch.rowsAll depth elseIf branches)) ∧
      ∀ body ∈ otherwise, ∀ depth, GivesRows (Emit.block depth body) (body.rows depth)
  | .compound statement => ∀ depth, GivesRows (Emit.statement depth statement) (statement.rows depth)
  | .statements statements =>
      ∀ depth, GivesRows (Emit.statements depth statements) (Statement.rowsAll depth statements)

/-- A statement on one line is emitted as its row, in each of the four forms it may have. -/
theorem gives_simple {tokens : List Token} {statement : Statement}
    (derived : SimpleOf tokens statement) : PhraseGives (.compound statement) := by
  intro depth
  cases derived with
  | declaration name colon type assign tokens value isName isColon isType isAssign initial =>
      simp only [Emit.statement]
      apply Gives.step
      refine (gives_name isName).bind ((gives_name isType).bind
        ((gives_initial initial).bind (gives_of_eq ?_)))
      simp only [Statement.rows, List.map_cons, List.map_nil, Row.line]
      congr 2
      apply String.toList_injective
      simp [Part.textAll, Part.text, Token.asWord]
  | manipulation target assign tokens value isTarget isAssign assigned =>
      simp only [Emit.statement]
      apply Gives.step
      refine (gives_name isTarget).bind ((gives_expression assigned).bind
        (gives_of_eq ?_))
      simp only [Statement.rows, List.map_cons, List.map_nil, Row.line]
      congr 2
      apply String.toList_injective
      simp [Part.textAll, Part.text, Token.asWord]
  | call tokens callee arguments derived =>
      simp only [Emit.statement, Emit.call, Statement.rows]
      apply Gives.step
      exact (gives_argument derived).bind (gives_of_eq rfl)
  | returnValue keyword value isReturn isOperand =>
      have word : Gives (Emit.text keyword) "return" := gives_text (by simp [spelling?, isReturn])
      simp only [Emit.statement]
      apply Gives.step
      refine word.bind ((gives_operand isOperand).bind (gives_of_eq ?_))
      simp only [Statement.rows, List.map_cons, List.map_nil, Row.line]
      congr 2
      apply String.toList_injective
      simp [Part.textAll, Part.text, Token.asWord]

/-- A header, the rows inside and the end of a block, as they are emitted. -/
theorem lines_block {depth : Nat} {written : String} {parts : List Part} (rows : List Row)
    (same : written = Part.textAll parts ++ " \x7b") :
    Line.code depth written :: rows.map Row.line ++ [Line.code depth "\x7d"] =
      (Row.header depth parts :: (rows ++ [Row.close depth])).map Row.line := by
  simp [same]

/-- A loop over a range is emitted as its rows if its block is. The counter is written three times
    in the header. -/
theorem gives_forRange {keyword counter start stop : Token} {body : Block Statement}
    (isFor : keyword.kind = .forWord) (isCounter : counter.kind = .identifier)
    (startBound : Bound start) (stopBound : Bound stop) (inside : PhraseGives (.block body)) :
    PhraseGives (.compound (.forRange keyword counter start stop body)) := by
  intro depth
  have word : Gives (Emit.text keyword) "for" := gives_text (by simp [spelling?, isFor])
  simp only [Emit.statement, Statement.rows]
  apply Gives.step
  refine word.bind ((gives_name isCounter).bind ((gives_bound startBound).bind
    ((gives_bound stopBound).bind ((inside (depth + 1)).bind
      (gives_of_eq (lines_block _ ?_))))))
  apply String.toList_injective
  simp [Part.textAll, Part.text, Token.asWord]

/-- A loop with a condition is emitted as its rows if its block is. -/
theorem gives_whileLoop {keyword : Token} {tokens : List Token} {condition : Comparison}
    {body : Block Statement} (isWhile : keyword.kind = .whileWord)
    (compared : ComparisonOf tokens condition) (inside : PhraseGives (.block body)) :
    PhraseGives (.compound (.whileLoop keyword condition body)) := by
  intro depth
  have word : Gives (Emit.text keyword) "for" := gives_text (by simp [spelling?, isWhile])
  simp only [Emit.statement, Statement.rows]
  apply Gives.step
  refine word.bind ((gives_comparison compared).bind
    ((inside (depth + 1)).bind (gives_of_eq (lines_block _ ?_))))
  apply String.toList_injective
  simp [Part.textAll, Part.text]

/-- A branch is emitted with what closes the branch before it and its own keyword in
    front. -/
theorem gives_branches {keyword : Token} {tokens : List Token} {condition : Comparison}
    {body : Block Statement} {branches : List (Branch Statement)} {closing word : String}
    {opening : List Part} (spelled : spelling? keyword = some word)
    (opens : closing ++ word = Part.textAll opening)
    (compared : ComparisonOf tokens condition) (inside : PhraseGives (.block body))
    {otherwise : Option (Block Statement)}
    (later : PhraseGives (.continuation branches otherwise)) (depth : Nat) :
    GivesRows (Emit.branches depth closing (⟨keyword, condition, body⟩ :: branches))
      (Branch.rowsAll depth opening (⟨keyword, condition, body⟩ :: branches)) := by
  simp only [Emit.branches]
  refine (gives_text spelled).bind ((gives_comparison compared).bind
    ((inside (depth + 1)).bind ((later.1 depth).bind (gives_of_eq ?_))))
  rw [opens]
  simp [Branch.rowsAll, Part.textAll, Part.text, String.append_assoc]

/-- A chain is emitted as its rows if its first block is and what comes after it. Only the opening
    of its first branch differs from those of the others. -/
theorem gives_ifChain {keyword : Token} {tokens : List Token} {condition : Comparison}
    {body : Block Statement} {branches : List (Branch Statement)}
    {otherwise : Option (Block Statement)} (isIf : keyword.kind = .ifWord)
    (compared : ComparisonOf tokens condition) (inside : PhraseGives (.block body))
    (later : PhraseGives (.continuation branches otherwise)) :
    PhraseGives (.compound (.ifChain (⟨keyword, condition, body⟩ :: branches) otherwise)) := by
  intro depth
  have spelled : spelling? keyword = some "if" := by simp [spelling?, isIf]
  have taken : GivesRows (Emit.branches depth "" (⟨keyword, condition, body⟩ :: branches))
      (Branch.rowsAll depth [.word "if"] (⟨keyword, condition, body⟩ :: branches)) :=
    gives_branches spelled rfl compared inside later depth
  cases otherwise with
  | none =>
      simp only [Emit.statement]
      apply Gives.step
      refine taken.bind ((gives_pure _).bind (gives_of_eq ?_))
      simp [Statement.rows]
  | some last =>
      simp only [Emit.statement]
      apply Gives.step
      refine taken.bind ((later.2 last rfl (depth + 1)).bind
        ((gives_pure _).bind (gives_of_eq ?_)))
      have written : "\x7d else \x7b" =
          Part.textAll [.mark "\x7d", .gap, .word "else"] ++ " \x7b" := rfl
      rw [written]
      simp [Statement.rows]

/-- A list of statements is emitted as its rows if its first statement is, and so are the others. -/
theorem gives_statements {statement : Statement} {statements : List Statement}
    (first : PhraseGives (.compound statement)) (later : PhraseGives (.statements statements)) :
    PhraseGives (.statements (statement :: statements)) := by
  intro depth
  simp only [Emit.statements]
  refine (first depth).bind ((later depth).bind (gives_of_eq ?_))
  simp [Statement.rowsAll]

/-! ## Functions and programs -/

/-- A parameter is emitted as a name and its type, with a blank between them and no colon. -/
theorem gives_parameter {tokens : List Token} {parameter : Parameter}
    (derived : ParameterOf tokens parameter) :
    Gives (Emit.parameter parameter) (Part.textAll parameter.parts) := by
  cases derived with
  | typed name colon type isName isColon isType =>
      refine (gives_name isName).bind ((gives_name isType).bind ?_)
      simpa [Parameter.parts, Part.textAll, Token.asWord, Part.text, String.append_assoc]
        using gives_pure _

/-- The parameters of a definition are emitted one by one, before commas are put between them. -/
theorem gives_parameters {tokens : List Token} {parameters : List Parameter}
    (listed : ParametersOf tokens parameters) :
    Gives (parameters.mapM Emit.parameter)
      ((parameters.map Parameter.parts).map Part.textAll) := by
  obtain ⟨parts, -, derived, rfl⟩ := listed
  rw [List.map_map]
  apply gives_mapM
  intro parameter member
  obtain ⟨part, isPart, rfl⟩ := List.mem_map.mp member
  exact gives_parameter (derived part isPart)

/-- A definition is emitted as its rows if its body is: a header with parameters and a result, if
    there is one, a block, and its end. -/
theorem gives_definition {keyword name : Token} {inner resultTokens : List Token}
    {parameters : List Parameter} {returns : Option Token} {body : Block Statement}
    (isDef : keyword.kind = .defWord) (isName : name.kind = .identifier)
    (listed : ParametersOf inner parameters) (result : ResultOf resultTokens returns)
    (inside : PhraseGives (.block body)) :
    GivesRows (Emit.definition ⟨keyword, name, parameters, returns, body⟩)
      (Definition.rows ⟨keyword, name, parameters, returns, body⟩) := by
  have word : Gives (Emit.text keyword) "func" := gives_text (by simp [spelling?, isDef])
  have header {written : String} (same : written = Part.textAll (resultParts returns)) :
      "func" ++ " " ++ spelling name ++ "(" ++
          String.intercalate ", " ((parameters.map Parameter.parts).map Part.textAll) ++ ")" ++
            written ++ " \x7b" =
        Part.textAll (.word "func" :: .gap :: name.asWord :: .mark "(" ::
          (Part.separated (parameters.map Parameter.parts) ++
            .mark ")" :: resultParts returns)) ++ " \x7b" := by
    rw [← Part.textAll_separated, same]
    apply String.toList_injective
    simp [Part.textAll, Part.text, Token.asWord]
  unfold Emit.definition
  apply Gives.step
  cases result with
  | missing =>
      exact word.bind ((gives_name isName).bind ((gives_parameters listed).bind
        ((gives_pure "").bind ((inside 1).bind
          (gives_of_eq (lines_block _ (header rfl)))))))
  | null arrow type isArrow isNull =>
      exact word.bind ((gives_name isName).bind ((gives_parameters listed).bind
        ((gives_pure "").bind ((inside 1).bind
          (gives_of_eq (lines_block _ (header rfl)))))))
  | named arrow type isArrow isResult =>
      refine word.bind ((gives_name isName).bind ((gives_parameters listed).bind
        ((gives_name isResult).bind ((gives_pure _).bind ((inside 1).bind
          (gives_of_eq (lines_block _ (header ?_))))))))
      simp [resultParts, Part.textAll, Part.text, Token.asWord]

/-- Everything that tokens stand for is emitted, and so are the functions that they
    define. -/
theorem derives_gives {first : Nat} {tokens : List Token} {phrase : Phrase}
    {functions : List Definition} (derived : Derives first tokens phrase functions) :
    PhraseGives phrase ∧
      ∀ definition ∈ functions, GivesRows (Emit.definition definition) definition.rows := by
  induction derived with
  | block first colon newline close tokens statements functions isColon isBreak isClose nonempty
      derived ih =>
      refine ⟨fun depth => ?_, ih.2⟩
      simp only [Emit.block, Block.rows]
      exact ih.1 depth
  | chainEnd first =>
      refine ⟨⟨fun depth => ?_, by simp⟩, by simp⟩
      simp only [Emit.branches, Branch.rowsAll]
      exact gives_pure []
  | otherwise first gap keyword tokens body functions breaks isElse derived ih =>
      refine ⟨⟨fun depth => ?_, ?_⟩, ih.2⟩
      · simp only [Emit.branches, Branch.rowsAll]
        exact gives_pure []
      · rintro _ ⟨⟩
        exact ih.1
  | branch first gap keyword condition tokens later comparison body branches otherwise functions
      laterFunctions breaks isElif compared derived continued ih laterIh =>
      have spelled : spelling? keyword = some "else if" := by simp [spelling?, isElif]
      refine ⟨⟨gives_branches spelled rfl compared ih.1 laterIh.1, laterIh.1.2⟩, ?_⟩
      exact List.forall_mem_append.mpr ⟨ih.2, laterIh.2⟩
  | forRange first keyword counter inside range left start comma stop right tokens body functions
      isFor isCounter isIn isRange opens startBound isComma stopBound closes derived ih =>
      exact ⟨gives_forRange isFor isCounter startBound stopBound ih.1, ih.2⟩
  | whileLoop first keyword condition tokens comparison body functions isWhile compared derived
      ih =>
      exact ⟨gives_whileLoop isWhile compared ih.1, ih.2⟩
  | ifChain first keyword condition tokens later comparison body branches otherwise functions
      laterFunctions isIf compared derived continued ih laterIh =>
      exact ⟨gives_ifChain isIf compared ih.1 laterIh.1,
        List.forall_mem_append.mpr ⟨ih.2, laterIh.2⟩⟩
  | definition first keyword name left right inner resultTokens tokens parameters returns body
      functions isDef isName opens listed closes result derived ih =>
      refine ⟨fun depth => ?_, List.forall_mem_append.mpr ⟨ih.2, ?_⟩⟩
      · simp only [Emit.statement, Statement.rows]
        exact gives_pure [Line.blank]
      · simpa using gives_definition isDef isName listed result ih.1
  | listEnd first gap breaks =>
      refine ⟨fun depth => ?_, by simp⟩
      simp only [Emit.statements, Statement.rowsAll]
      exact gives_pure []
  | simple first gap tokens later statement statements functions breaks derived ends continued ih =>
      exact ⟨gives_statements (gives_simple derived) ih.1, ih.2⟩
  | compound first gap tokens later statement statements functions laterFunctions breaks derived
      continued ih laterIh =>
      exact ⟨gives_statements ih.1 laterIh.1, List.forall_mem_append.mpr ⟨ih.2, laterIh.2⟩⟩

/-- All functions are emitted as their rows, each after a blank row, if every one of them is. The
    induction is on the list. -/
theorem gives_definitions {definitions : List Definition}
    (each : ∀ definition ∈ definitions,
      GivesRows (Emit.definition definition) definition.rows) :
    GivesRows (Emit.definitions definitions) (Definition.rowsAll definitions) := by
  induction definitions with
  | nil => exact gives_pure []
  | cons definition definitions ih =>
      have later := ih fun other member => each other (List.mem_cons_of_mem definition member)
      refine (each definition (by simp)).bind (later.bind ?_)
      simpa [Definition.rowsAll, Row.line] using gives_pure _

end Go.Emit

/-- A program that tokens stand for is emitted as the text of its rows. -/
theorem emit_rows {tokens : List Token} {program : Program} (derived : ProgramOf tokens program) :
    Go.emit program = .ok (Line.renderAll (program.rows.map Row.line)) := by
  cases derived with
  | program gap clauseTokens tokens clause body functions breaks imported ends derived =>
      obtain ⟨emitted, each⟩ := Go.Emit.derives_gives derived
      have rows : Go.Emit.GivesRows (Go.Emit.program ⟨clause, body, functions⟩)
          (Program.rows ⟨clause, body, functions⟩) := by
        refine (Go.Emit.gives_definitions each).bind
          ((emitted 1).bind (Go.Emit.gives_of_eq ?_))
        have package : "package main" = Part.textAll [.word "package", .gap, .word "main"] := rfl
        have main : "func main() \x7b" =
            Part.textAll [.word "func", .gap, .word "main", .mark "(", .mark ")"] ++ " \x7b" := rfl
        rw [package, main]
        have gap : Row.blank.line = Line.blank := rfl
        have code (parts : List Part) : (Row.code 0 parts).line = .code 0 (Part.textAll parts) := rfl
        simp [Program.rows, gap, code]
      simp only [Go.emit, rows ["emit"]]
      rfl

end Offside
