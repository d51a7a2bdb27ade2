import Mathlib.Data.List.Induction
import Offside.Proofs.Source.Lines
import Offside.Proofs.Syntax.Derivation

/-!
# Writing programs out

A program as text: one statement on a line, four blanks for each level of
nesting, and every definition at its placeholder. Which trees can be written out
is said by `Program.WellFormed`: the leaves have kinds that the grammar admits at
their places and texts that are scanned as these kinds, blocks are not empty,
chains start with one branch and go on with others, and the functions are
numbered in the order in which their definitions end.

Functions are kept apart from their placeholders, so neither printing nor
numbering is a recursion on the tree alone. A definition can only contain
definitions that end before it, and these come before it in the list: both are
computed along the list of functions, each from the results for those before it.
-/

namespace Offside

/-- A result for each item, computed from the results for the items before it. -/
def accumulate {α β : Type} (step : List β → α → β) (items : List α) : List β :=
  items.foldl (fun earlier item => earlier ++ [step earlier item]) []

/-- The result for the last item is computed from the results for all others, which are not touched
    by it. -/
theorem accumulate_concat {α β : Type} (step : List β → α → β) (items : List α) (item : α) :
    accumulate step (items ++ [item]) =
      accumulate step items ++ [step (accumulate step items) item] := by
  simp [accumulate]

/-- There is one result for each item, by induction from the end of the list. -/
theorem length_accumulate {α β : Type} (step : List β → α → β) (items : List α) :
    (accumulate step items).length = items.length := by
  induction items using List.reverseRecOn with
  | nil => rfl
  | append_singleton items item ih => simp [accumulate_concat, ih]

/-- The result for an item only depends on the items before it. -/
theorem accumulate_getElem? {α β : Type} (step : List β → α → β) (items : List α) (index : Nat) :
    (accumulate step items)[index]? =
      items[index]?.map (step (accumulate step (items.take index))) := by
  induction items using List.reverseRecOn with
  | nil => simp [accumulate]
  | append_singleton items item ih =>
      rw [accumulate_concat]
      rcases Nat.lt_trichotomy index items.length with before | here | after
      · rw [List.getElem?_append_left (by rwa [length_accumulate]), ih,
          List.getElem?_append_left before, List.take_append_of_le_length (Nat.le_of_lt before)]
      · subst here
        simp [length_accumulate]
      · rw [List.getElem?_eq_none (by simp [length_accumulate]; omega),
          List.getElem?_eq_none (by simp; omega)]
        rfl

/-! ## Tokens of a line -/

/-- A token of a kind that has one text. -/
def Token.mark (kind : Kind) : Token :=
  ⟨kind, kind.spelling?.getD "", 0⟩

/-- A token that may stand at its place and has a text that is scanned as its
    kind. -/
def Token.Fits (admitted : Token → Prop) (token : Token) : Prop :=
  admitted token ∧ token.Spelled

/-- Stretches with a comma between neighbours. -/
def commaList : List (List Token) → List Token
  | [] => []
  | [item] => item
  | item :: next :: items => item ++ Token.mark .comma :: commaList (next :: items)

namespace Expression

/-- The tokens of an expression. -/
def tokens : Expression → List Token
  | ⟨left, none⟩ => [left]
  | ⟨left, some (operator, right)⟩ => [left, operator, right]

/-- The same expression on one line. -/
def onLine (number : Nat) (expression : Expression) : Expression :=
  ⟨expression.left.onLine number,
    expression.tail.map fun (operator, right) => (operator.onLine number, right.onLine number)⟩

/-- Operands and operators stand at their places. -/
structure WellFormed (expression : Expression) : Prop where
  left : expression.left.Fits Grammar.Operand
  tail : ∀ operator right, expression.tail = some (operator, right) →
    operator.Fits Grammar.Operator ∧ right.Fits Grammar.Operand

end Expression

namespace Comparison

/-- The tokens of a condition. -/
def tokens : Comparison → List Token
  | ⟨left, none⟩ => left.tokens
  | ⟨left, some (comparator, right)⟩ => left.tokens ++ comparator :: right.tokens

/-- The same condition on one line. -/
def onLine (number : Nat) (comparison : Comparison) : Comparison :=
  ⟨comparison.left.onLine number,
    comparison.tail.map fun (comparator, right) =>
      (comparator.onLine number, right.onLine number)⟩

/-- Expressions and comparators stand at their places. -/
structure WellFormed (comparison : Comparison) : Prop where
  left : comparison.left.WellFormed
  tail : ∀ comparator right, comparison.tail = some (comparator, right) →
    comparator.Fits Grammar.Comparator ∧ right.WellFormed

end Comparison

mutual

/-- The tokens of a value. -/
def Value.tokens : Value → List Token
  | .terminal token => [token]
  | .call callee arguments =>
      callee :: Token.mark .leftParen ::
        (commaList (Value.tokensAll arguments) ++ [Token.mark .rightParen])

/-- The tokens of each of several values. -/
def Value.tokensAll : List Value → List (List Token)
  | [] => []
  | value :: values => value.tokens :: Value.tokensAll values

end

mutual

/-- The same value on one line. -/
def Value.onLine (number : Nat) : Value → Value
  | .terminal token => .terminal (token.onLine number)
  | .call callee arguments => .call (callee.onLine number) (Value.onLineAll number arguments)

/-- Several values on one line. -/
def Value.onLineAll (number : Nat) : List Value → List Value
  | [] => []
  | value :: values => value.onLine number :: Value.onLineAll number values

end

/-- Operands and callees stand at their places, however deep calls nest. -/
inductive Value.WellFormed : Value → Prop where
  | terminal (token : Token) (fits : token.Fits Grammar.Operand) : WellFormed (.terminal token)
  | call (callee : Token) (arguments : List Value) (fits : callee.Fits Grammar.Callee)
      (wellFormed : ∀ argument ∈ arguments, WellFormed argument) :
      WellFormed (.call callee arguments)

/-- An initial value is no name. -/
def Value.Initial (value : Value) : Prop :=
  value.WellFormed ∧ ∀ token, value = .terminal token → Grammar.Literal token

namespace Parameter

/-- The tokens of a parameter. -/
def tokens (parameter : Parameter) : List Token :=
  [parameter.name, Token.mark .colon, parameter.type]

/-- The same parameter on one line. -/
def onLine (number : Nat) (parameter : Parameter) : Parameter :=
  ⟨parameter.name.onLine number, parameter.type.onLine number⟩

/-- A parameter is a name and the name of a type. -/
def WellFormed (parameter : Parameter) : Prop :=
  parameter.name.Fits (·.kind = .identifier) ∧ parameter.type.Fits (·.kind = .identifier)

end Parameter

/-- The tokens of a definition before its block. -/
def Definition.header (definition : Definition) : List Token :=
  definition.keyword :: definition.name :: Token.mark .leftParen ::
    (commaList (definition.parameters.map Parameter.tokens) ++
      Token.mark .rightParen ::
        match definition.returns with
        | none => [Token.mark .colon]
        | some type => [Token.mark .arrow, type, Token.mark .colon])

/-- The tokens of an import clause. -/
def ImportClause.tokens (clause : ImportClause) : List Token :=
  match clause.item with
  | none => [Token.mark .importWord, clause.module]
  | some item => [Token.mark .fromWord, clause.module, Token.mark .importWord, item]

/-! ## Lines of a program -/

/-- How a definition is written out at a depth. -/
abbrev Writing := Nat → List TextLine

mutual

/-- The lines of a statement at depth `depth`. A placeholder is written as its
    definition. -/
def Statement.lines (definitions : List Writing) (depth : Nat) : Statement → List TextLine
  | .forRange keyword counter start stop body =>
      ⟨depth, [keyword, counter, Token.mark .inWord, Token.mark .range, Token.mark .leftParen,
        start, Token.mark .comma, stop, Token.mark .rightParen, Token.mark .colon]⟩ ::
        Block.lines definitions (depth + 1) body
  | .whileLoop keyword condition body =>
      ⟨depth, keyword :: (condition.tokens ++ [Token.mark .colon])⟩ ::
        Block.lines definitions (depth + 1) body
  | .ifChain branches otherwise =>
      Branch.linesAll definitions depth branches ++
        match otherwise with
        | none => []
        | some body =>
            ⟨depth, [Token.mark .elseWord, Token.mark .colon]⟩ ::
              Block.lines definitions (depth + 1) body
  | .declaration name type value =>
      [⟨depth, name :: Token.mark .colon :: type :: Token.mark .assign :: value.tokens⟩]
  | .manipulation target value => [⟨depth, target :: Token.mark .assign :: value.tokens⟩]
  | .call callee arguments => [⟨depth, (Value.call callee arguments).tokens⟩]
  | .returnValue keyword value => [⟨depth, [keyword, value]⟩]
  | .hoisted index _ => (definitions[index]?.getD fun _ => []) depth

/-- The lines of a block at depth `depth`. -/
def Block.lines (definitions : List Writing) (depth : Nat) : Block Statement → List TextLine
  | ⟨_, statements⟩ => Statement.linesAll definitions depth statements

/-- The lines of all branches, with their headers at depth `depth`. -/
def Branch.linesAll (definitions : List Writing) (depth : Nat) :
    List (Branch Statement) → List TextLine
  | [] => []
  | ⟨keyword, condition, body⟩ :: branches =>
      ⟨depth, keyword :: (condition.tokens ++ [Token.mark .colon])⟩ ::
        (Block.lines definitions (depth + 1) body ++ Branch.linesAll definitions depth branches)

/-- The lines of several statements of one list. -/
def Statement.linesAll (definitions : List Writing) (depth : Nat) :
    List Statement → List TextLine
  | [] => []
  | statement :: statements =>
      statement.lines definitions depth ++ Statement.linesAll definitions depth statements

end

/-- The lines of a definition, given how the definitions before it are
    written. -/
def Definition.lines (definitions : List Writing) (definition : Definition) : Writing :=
  fun depth => ⟨depth, definition.header⟩ :: Block.lines definitions (depth + 1) definition.body

/-- How each function is written. -/
def Definition.writings (functions : List Definition) : List Writing :=
  accumulate Definition.lines functions

/-- The lines of a program: the import clause, then the body. -/
def Program.lines (program : Program) : List TextLine :=
  ⟨0, program.importClause.tokens⟩ ::
    Statement.linesAll (Definition.writings program.functions) 0 program.body

/-- A program as text. -/
def Program.text (program : Program) : String :=
  TextLine.textAll program.lines

/-! ## Numbering -/

mutual

/-- The functions whose definitions end in a statement, in the order in which they
    end. `earlier` holds them for the bodies of the functions. -/
def Statement.ended (earlier : List (List Nat)) : Statement → List Nat
  | .forRange _ _ _ _ body => Block.ended earlier body
  | .whileLoop _ _ body => Block.ended earlier body
  | .ifChain branches otherwise =>
      Branch.endedAll earlier branches ++
        match otherwise with
        | none => []
        | some body => Block.ended earlier body
  | .hoisted index _ => earlier[index]?.getD [] ++ [index]
  | _ => []

/-- The functions whose definitions end in a block. -/
def Block.ended (earlier : List (List Nat)) : Block Statement → List Nat
  | ⟨_, statements⟩ => Statement.endedAll earlier statements

/-- The functions whose definitions end in the branches of a chain. -/
def Branch.endedAll (earlier : List (List Nat)) : List (Branch Statement) → List Nat
  | [] => []
  | ⟨_, _, body⟩ :: branches => Block.ended earlier body ++ Branch.endedAll earlier branches

/-- The functions whose definitions end in a list of statements. -/
def Statement.endedAll (earlier : List (List Nat)) : List Statement → List Nat
  | [] => []
  | statement :: statements => statement.ended earlier ++ Statement.endedAll earlier statements

end

/-- The functions whose definitions end in the body of each function. -/
def Definition.endings (functions : List Definition) : List (List Nat) :=
  accumulate (fun earlier definition => Block.ended earlier definition.body) functions

/-! ## Well-formed programs -/

/-- The leaves stand at their places, blocks are not empty, and chains start with
    one branch and go on with others. -/
inductive Statement.WellFormed : Statement → Prop where
  | forRange (keyword counter start stop : Token) (body : Block Statement)
      (isFor : keyword.Fits (·.kind = .forWord)) (isName : counter.Fits (·.kind = .identifier))
      (startBound : start.Fits Grammar.Bound) (stopBound : stop.Fits Grammar.Bound)
      (nonempty : body.statements ≠ [])
      (wellFormed : ∀ statement ∈ body.statements, WellFormed statement) :
      WellFormed (.forRange keyword counter start stop body)
  | whileLoop (keyword : Token) (condition : Comparison) (body : Block Statement)
      (isWhile : keyword.Fits (·.kind = .whileWord)) (compared : condition.WellFormed)
      (nonempty : body.statements ≠ [])
      (wellFormed : ∀ statement ∈ body.statements, WellFormed statement) :
      WellFormed (.whileLoop keyword condition body)
  | ifChain (first : Branch Statement) (branches : List (Branch Statement))
      (otherwise : Option (Block Statement))
      (isIf : first.keyword.Fits (·.kind = .ifWord))
      (isElif : ∀ branch ∈ branches, branch.keyword.Fits (·.kind = .elifWord))
      (compared : ∀ branch ∈ first :: branches, branch.condition.WellFormed)
      (nonempty : ∀ branch ∈ first :: branches, branch.body.statements ≠ [])
      (wellFormed : ∀ branch ∈ first :: branches, ∀ statement ∈ branch.body.statements,
        WellFormed statement)
      (otherwiseNonempty : ∀ body ∈ otherwise, body.statements ≠ [])
      (otherwiseWellFormed : ∀ body ∈ otherwise, ∀ statement ∈ body.statements,
        WellFormed statement) :
      WellFormed (.ifChain (first :: branches) otherwise)
  | declaration (name type : Token) (value : Value) (isName : name.Fits (·.kind = .identifier))
      (isType : type.Fits (·.kind = .identifier)) (initial : value.Initial) :
      WellFormed (.declaration name type value)
  | manipulation (target : Token) (value : Expression)
      (isTarget : target.Fits (·.kind = .identifier)) (wellFormed : value.WellFormed) :
      WellFormed (.manipulation target value)
  | call (callee : Token) (arguments : List Value)
      (wellFormed : (Value.call callee arguments).WellFormed) :
      WellFormed (.call callee arguments)
  | returnValue (keyword value : Token) (isReturn : keyword.Fits (·.kind = .returnWord))
      (isOperand : value.Fits Grammar.Operand) :
      WellFormed (.returnValue keyword value)
  | hoisted (index line : Nat) : WellFormed (.hoisted index line)

/-- A definition with its leaves at their places and a block that is not empty. -/
structure Definition.WellFormed (definition : Definition) : Prop where
  keyword : definition.keyword.Fits (·.kind = .defWord)
  name : definition.name.Fits (·.kind = .identifier)
  parameters : ∀ parameter ∈ definition.parameters, parameter.WellFormed
  returns : ∀ type ∈ definition.returns, type.Fits (·.kind = .identifier)
  nonempty : definition.body.statements ≠ []
  body : ∀ statement ∈ definition.body.statements, statement.WellFormed

/-- The clause imports the runtime: as a whole, everything in it, or one name of
    it. -/
structure ImportClause.WellFormed (clause : ImportClause) : Prop where
  module : clause.module.kind = .identifier ∧ clause.module.lexeme = "GoType"
  item : ∀ token ∈ clause.item,
    token.Fits fun token => token.kind = .star ∨ token.kind = .identifier

/-- A program that can be written out. Every function has exactly one placeholder,
    and their numbers are in the order in which the definitions end. -/
structure Program.WellFormed (program : Program) : Prop where
  clause : program.importClause.WellFormed
  body : ∀ statement ∈ program.body, statement.WellFormed
  functions : ∀ definition ∈ program.functions, definition.WellFormed
  numbered : Statement.endedAll (Definition.endings program.functions) program.body =
    List.range program.functions.length

/-! ## Programs up to line numbers -/

mutual

/-- The statement with every line number in it replaced. -/
def Statement.onLine (number : Nat) : Statement → Statement
  | .forRange keyword counter start stop body =>
      .forRange (keyword.onLine number) (counter.onLine number) (start.onLine number)
        (stop.onLine number) (Block.onLine number body)
  | .whileLoop keyword condition body =>
      .whileLoop (keyword.onLine number) (condition.onLine number) (Block.onLine number body)
  | .ifChain branches otherwise =>
      .ifChain (Branch.onLineAll number branches)
        (match otherwise with
        | none => none
        | some body => some (Block.onLine number body))
  | .declaration name type value =>
      .declaration (name.onLine number) (type.onLine number) (value.onLine number)
  | .manipulation target value => .manipulation (target.onLine number) (value.onLine number)
  | .call callee arguments => .call (callee.onLine number) (Value.onLineAll number arguments)
  | .returnValue keyword value => .returnValue (keyword.onLine number) (value.onLine number)
  | .hoisted index _ => .hoisted index number

/-- The block with every line number in it replaced. -/
def Block.onLine (number : Nat) : Block Statement → Block Statement
  | ⟨_, statements⟩ => ⟨number, Statement.onLineAll number statements⟩

/-- Branches with every line number in them replaced. -/
def Branch.onLineAll (number : Nat) : List (Branch Statement) → List (Branch Statement)
  | [] => []
  | ⟨keyword, condition, body⟩ :: branches =>
      ⟨keyword.onLine number, condition.onLine number, Block.onLine number body⟩ ::
        Branch.onLineAll number branches

/-- Statements with every line number in them replaced. -/
def Statement.onLineAll (number : Nat) : List Statement → List Statement
  | [] => []
  | statement :: statements =>
      statement.onLine number :: Statement.onLineAll number statements

end

/-- The definition with every line number in it replaced. -/
def Definition.onLine (number : Nat) (definition : Definition) : Definition where
  keyword := definition.keyword.onLine number
  name := definition.name.onLine number
  parameters := definition.parameters.map (Parameter.onLine number)
  returns := definition.returns.map (Token.onLine number)
  body := definition.body.onLine number

/-- The import clause with every line number in it replaced. -/
def ImportClause.onLine (number : Nat) (clause : ImportClause) : ImportClause where
  module := clause.module.onLine number
  item := clause.item.map (Token.onLine number)
  line := number

/-- The program with every line number in it replaced. Two programs are equal up
    to line numbers if they are equal after all are replaced by the same one. -/
def Program.onLine (number : Nat) (program : Program) : Program where
  importClause := program.importClause.onLine number
  body := Statement.onLineAll number program.body
  functions := program.functions.map (Definition.onLine number)

end Offside
