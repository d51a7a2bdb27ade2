import Offside.Syntax.Reader

/-!
# The grammar

One reader for each production. The kind of the current token selects the
statement, and the kind after it tells declarations, assignments and calls
apart.

Two places go back over tokens. The value of a declaration is tried as a call
before it is read as a literal, and line breaks after a branch are read in search
of its continuation. Neither reads a definition on the way, so going back never
separates a placeholder from its function.

Calls and blocks nest. Their readers carry a bound on the depth of nesting, which
is the number of unread tokens where the outermost one starts: every level reads
a token before it goes deeper, so the bound reaches zero only when no token is
left, and there a call or block fails at its first token.
-/

namespace Offside.Reader

/-- What a literal may be. -/
def literals : List Kind :=
  [.boolLiteral, .intLiteral, .stringLiteral, .nullLiteral]

/-- What an operand may be. -/
def operands : List Kind :=
  [.identifier, .boolLiteral, .intLiteral, .stringLiteral, .nullLiteral]

/-- What a bound of a counting loop may be. -/
def bounds : List Kind :=
  [.intLiteral, .identifier]

/-- What may be called. -/
def callees : List Kind :=
  [.identifier, .print]

/-- A callee and an opening parenthesis come next. -/
def atCall : Reader Bool := do
  match ← currentKind, ← nextKind with
  | some kind, some next => return callees.contains kind && next == .leftParen
  | _, _ => return false

/-- One operand, or two with an operator between them. -/
def expression : Reader Expression :=
  production "expression" do
    let left ← expectAny operands
    match ← accept? Kind.isMathOperator with
    | some operator => return ⟨left, some (operator, ← expectAny operands)⟩
    | none => return ⟨left, none⟩

/-- One expression, or two with a comparator between them. -/
def comparison : Reader Comparison :=
  production "comparison" do
    let left ← expression
    match ← accept? Kind.isComparator with
    | some comparator => return ⟨left, some (comparator, ← expression)⟩
    | none => return ⟨left, none⟩

/-- A call in which calls nest at most `bound` deep, as its callee and its
    arguments. -/
def callWithin : Nat → Reader (Token × List Value)
  | 0 => production "call" (unexpected callees)
  | bound + 1 =>
      production "call" do
        let callee ← expectAny callees
        let arguments ← parenthesized do
          if ← atCall then
            let (nested, arguments) ← callWithin bound
            return Value.call nested arguments
          else return Value.terminal (← expectAny operands)
        return (callee, arguments)

/-- A call, as its callee and its arguments. -/
def call : Reader (Token × List Value) := do
  callWithin (← unread).length

/-- A value that was tried as a call and is not one: read it again as a
    literal. What has the shape of a call has to be one. -/
def literalAfter (shaped : Bool) (checkpoint : List Token) (failure : Failure) :
    Reader Value := do
  if shaped then throw failure
  report (.notACall failure)
  rewind checkpoint
  return .terminal (← expectAny literals)

/-- The initial value of a declaration: a call or a literal. -/
def initialValue : Reader Value := do
  let shaped ← atCall
  let checkpoint ← unread
  tryCatch
    (do
      let (callee, arguments) ← call
      return Value.call callee arguments)
    (literalAfter shaped checkpoint)

/-- A name with its type and initial value. -/
def declaration : Reader Statement :=
  production "declaration" do
    let name ← expect .identifier
    let _ ← expect .colon
    let type ← expect .identifier
    let _ ← expect .assign
    return .declaration name type (← initialValue)

/-- A new value for a name. -/
def manipulation : Reader Statement :=
  production "manipulation" do
    let target ← expect .identifier
    let _ ← expect .assign
    return .manipulation target (← expression)

/-- A call as a statement. -/
def callStatement : Reader Statement := do
  let (callee, arguments) ← call
  return .call callee arguments

/-- The result of a function. -/
def returnValue : Reader Statement :=
  production "return" do
    let keyword ← expect .returnWord
    return .returnValue keyword (← expectAny operands)

/-- A simple statement, and the import clause, end where a line or a block
    ends. -/
def lineEnd : Reader Unit := do
  match ← current with
  | none => return ()
  | some token =>
      if token.kind = .newline ∨ token.kind = .closeBlock then return ()
      else fail (.expectedLineEnd token)

section Compound

variable (block : Reader (Block Statement))

/-- A counting loop. -/
def forRange : Reader Statement :=
  production "for" do
    let keyword ← expect .forWord
    let counter ← expect .identifier
    let _ ← expect .inWord
    let _ ← expect .range
    let _ ← expect .leftParen
    let start ← expectAny bounds
    let _ ← expect .comma
    let stop ← expectAny bounds
    let _ ← expect .rightParen
    return .forRange keyword counter start stop (← block)

/-- A conditional loop. -/
def whileLoop : Reader Statement :=
  production "while" do
    let keyword ← expect .whileWord
    let condition ← comparison
    return .whileLoop keyword condition (← block)

/-- A condition and the block it guards. -/
def branch (word : Kind) : Reader (Branch Statement) := do
  let keyword ← expect word
  let condition ← comparison
  return ⟨keyword, condition, ← block⟩

/-- What continues a chain after a branch, at most `bound` times: further
    branches, and then the block for when none is taken. Line breaks that lead
    to neither are left unread. -/
def continuation : Nat → Reader (List (Branch Statement) × Option (Block Statement))
  | 0 => do
      rewind (← unread)
      return ([], none)
  | bound + 1 => do
      let checkpoint ← unread
      skipNewlines
      match ← currentKind with
      | some .elifWord =>
          let next ← branch block .elifWord
          let (branches, otherwise) ← continuation bound
          return (next :: branches, otherwise)
      | some .elseWord =>
          advance
          return ([], some (← block))
      | _ =>
          rewind checkpoint
          return ([], none)

/-- A chain of branches. -/
def ifChain : Reader Statement :=
  production "if" do
    let first ← branch block .ifWord
    let (branches, otherwise) ← continuation block (← unread).length
    return .ifChain (first :: branches) otherwise

/-- A parameter with its type. -/
def parameter : Reader Parameter := do
  let name ← expect .identifier
  let _ ← expect .colon
  return ⟨name, ← expect .identifier⟩

/-- The result type after an arrow. `None`, like no arrow at all, stands for no
    result. -/
def resultType : Reader (Option Token) := do
  match ← accept? (· == .arrow) with
  | none => return none
  | some _ =>
      let type ← expectAny [.identifier, .nullLiteral]
      return if type.isIdentifier then some type else none

/-- Add a definition to those met so far, and leave its placeholder. -/
def hoist (definition : Definition) : Reader Statement := do
  let index := (← get).functions.length
  report (.hoisted definition.name.lexeme index)
  modify fun state => { state with functions := state.functions ++ [definition] }
  return .hoisted index definition.keyword.line

/-- A definition. It is hoisted when its body has ended, so the definitions
    inside its body come before it. -/
def definition : Reader Statement :=
  production "function" do
    let keyword ← expect .defWord
    let name ← expect .identifier
    let parameters ← parenthesized parameter
    let returns ← resultType
    hoist ⟨keyword, name, parameters, returns, ← block⟩

/-- A statement that starts with a name. -/
def namedStatement : Reader Statement := do
  match ← nextKind with
  | some .colon => declaration
  | some .assign => manipulation
  | some .leftParen => callStatement
  | _ =>
      advance
      unexpected [.colon, .assign, .leftParen]

/-- A statement, whatever must follow it apart. -/
def statement : Reader Statement :=
  production "statement" do
    match ← currentKind with
    | some .forWord => forRange block
    | some .whileWord => whileLoop block
    | some .ifWord => ifChain block
    | some .defWord => definition block
    | some .returnWord => returnValue
    | some .print => callStatement
    | some .identifier => namedStatement
    | some .importWord | some .fromWord => fail .lateImport
    | _ => fail (.expectedStatement (← current))

/-- A statement and whatever must follow it. -/
def terminatedStatement : Reader Statement := do
  let result ← statement block
  if result.endsWithBlock then return result
  lineEnd
  return result

/-- Statements up to the end of a block or of the input, at most `bound` of
    them. -/
def statementsWithin : Nat → Reader (List Statement)
  | 0 => return []
  | bound + 1 => do
      skipNewlines
      match ← currentKind with
      | none | some .closeBlock => return []
      | some _ =>
          let first ← terminatedStatement block
          return first :: (← statementsWithin bound)

/-- Statements up to the end of a block or of the input. -/
def statements : Reader (List Statement) := do
  statementsWithin block (← unread).length

end Compound

/-- A block in which blocks nest at most `bound` deep. -/
def blockWithin : Nat → Reader (Block Statement)
  | 0 => production "block" (unexpected [.colon])
  | bound + 1 =>
      production "block" do
        let line ← currentLine
        let _ ← expect .colon
        let _ ← expect .newline
        let statements ← statements (blockWithin bound)
        match ← currentKind with
        | some .closeBlock =>
            if statements.isEmpty then fail .emptyBlock
            advance
            return ⟨line, statements⟩
        | _ => fail .unterminatedBlock

/-- The import clause, which has to name the runtime. -/
def importClause : Reader ImportClause :=
  production "import" do
    let line ← currentLine
    let clause ←
      match ← currentKind with
      | some .importWord =>
          advance
          pure ⟨← expect .identifier, none, line⟩
      | some .fromWord =>
          advance
          let module ← expect .identifier
          let _ ← expect .importWord
          pure ⟨module, some (← expectAny [.star, .identifier]), line⟩
      | _ => fail .missingImport
    if clause.module.lexeme ≠ runtimeModule then failOn clause.module.line .missingImport
    return clause

/-- A whole program. -/
def program : Reader Program :=
  production "program" do
    skipNewlines
    let clause ← importClause
    lineEnd
    let body ← statements (blockWithin (← unread).length)
    match ← currentKind with
    | some _ => fail .strayBlockEnd
    | none => return ⟨clause, body, (← get).functions⟩

end Offside.Reader

namespace Offside

/-- Read a whole token list as a program. -/
def Program.parse (tokens : List Token) : Traced Program := fun events =>
  let context : Reader.Context := ⟨["parse"], tokens.length, Token.lastLine tokens⟩
  match Reader.program context ⟨tokens, [], events⟩ with
  | .error failure state => .error failure state.events
  | .ok program state =>
      .ok program
        (state.events.push (.parsed program.body.length program.functions.length))

end Offside
