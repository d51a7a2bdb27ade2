import Offside.Proofs.Syntax.Rounds

/-!
# The grammar on a cursor

A reader takes tokens from the front of a list. It finds the productions that it stands in in its
context, and how deep phrases nest and how often a loop goes round is bounded by the tokens that
are left. Here the same grammar is read by a parser that has one list of tokens and a cursor in
it. The cursor is moved forward over each token that is taken, and set back to an earlier position
where an alternative is given up. The trail is a list that each production extends and shortens
again at its end, whether or not it succeeds. Loops and nested phrases go on for as long as they
do; fuel makes them functions, and has nothing to do with the tokens.

Taking a token needs one. At the end of the input it makes one up, and that is noted as a mishap,
as is fuel that has run out.
-/

namespace Offside

/-- What should never happen to a parser. -/
inductive Mishap where
  /-- A token was taken where there is none, so it was made up. -/
  | fabricated
  /-- A loop or a nested phrase has run out of fuel. -/
  | exhausted
  deriving DecidableEq, Repr

/-- A parser under way. -/
structure Parser where
  tokens : List Token
  /-- The index of the current token. At the end of the input there is none. -/
  position : Nat
  /-- The productions that the parser stands in, outermost first. -/
  trail : List String
  /-- The definitions met so far. -/
  functions : List Definition
  events : Array Event
  mishaps : List Mishap
  deriving Repr

namespace Parser

/-- A parser before the first token. -/
def start (tokens : List Token) (events : Array Event) : Parser :=
  ⟨tokens, 0, ["parse"], [], events, []⟩

variable (parser : Parser)

/-- How many tokens there are from the cursor on. -/
def unread : Nat :=
  parser.tokens.length - parser.position

/-- The current token. -/
def current : Option Token :=
  parser.tokens[parser.position]?

/-- The token after the current one. -/
def next : Option Token :=
  parser.tokens[parser.position + 1]?

/-- The line of the current token, or of the last one at the end of the input. -/
def currentLine : Nat :=
  ((parser.current.or parser.tokens.getLast?).map Token.line).getD 1

/-- The cursor one token further, unless it is at the end of the input. -/
def advanced : Parser :=
  if parser.position < parser.tokens.length then
    { parser with position := parser.position + 1 }
  else parser

/-- The cursor somewhere else. -/
def rewound (checkpoint : Nat) : Parser :=
  { parser with
    position := checkpoint
    events := parser.events.push (.rewound parser.position checkpoint) }

/-- One more step on the trail. -/
def within (name : String) : Parser :=
  { parser with trail := parser.trail ++ [name] }

/-- One step less on the trail. -/
def without : Parser :=
  { parser with trail := parser.trail.dropLast }

/-- What a reader knows where the parser stands. -/
def context : Reader.Context :=
  ⟨parser.trail, parser.tokens.length, Token.lastLine parser.tokens⟩

/-- What a reader has before it where the parser stands. -/
def state : Reader.State :=
  ⟨parser.tokens.drop parser.position, parser.functions, parser.events⟩

end Parser

/-- Parses a part of a program. -/
abbrev Parsing := EStateM Failure Parser

namespace Parsing

open Reader (literals operands bounds callees)

variable {α : Type}

/-! ## The cursor -/

/-- What can be seen from where the parser stands. -/
def look (view : Parser → α) : Parsing α :=
  return view (← get)

def currentKind : Parsing (Option Kind) :=
  look fun parser => parser.current.map Token.kind

def nextKind : Parsing (Option Kind) :=
  look fun parser => parser.next.map Token.kind

def report (event : Event) : Parsing Unit :=
  modify fun parser => { parser with events := parser.events.push event }

def note (mishap : Mishap) : Parsing Unit :=
  modify fun parser => { parser with mishaps := parser.mishaps ++ [mishap] }

/-- Give up with a fault on a line. -/
def failOn (line : Nat) (fault : SyntaxFault) : Parsing α := do
  throw (.parse ⟨← look Parser.trail, line, fault.message⟩)

/-- Give up with a fault at the current token. -/
def fail (fault : SyntaxFault) : Parsing α := do
  failOn (← look Parser.currentLine) fault

/-- Give up because the current token is none of these kinds. -/
def unexpected (kinds : List Kind) : Parsing α := do
  fail (.expected kinds (← look Parser.current))

/-- Give up because there is no fuel. -/
def exhausted : Parsing α := do
  note .exhausted
  unexpected []

/-- Move past the current token, if there is one. -/
def advance : Parsing Unit :=
  modify Parser.advanced

/-- Move the cursor back. -/
def rewind (checkpoint : Nat) : Parsing Unit :=
  modify fun parser => parser.rewound checkpoint

/-- Move past the current token if it has this kind. -/
def advanceIf (kind : Kind) : Parsing Bool := do
  if (← currentKind) = some kind then
    advance
    return true
  else return false

/-- Take the current token, which callers have seen. -/
def take : Parsing Token := do
  match ← look Parser.current with
  | some token =>
      advance
      return token
  | none =>
      note .fabricated
      let line ← look Parser.currentLine
      advance
      return ⟨.illegal, "", line⟩

/-- Take the current token if its kind is admitted. -/
def takeIf? (admitted : Kind → Bool) : Parsing (Option Token) := do
  match ← currentKind with
  | some kind =>
      if admitted kind then return some (← take)
      else return none
  | none => return none

/-- Take the current token, which must have one of these kinds. -/
def expectAny (kinds : List Kind) : Parsing Token := do
  match ← currentKind with
  | some kind =>
      if kinds.contains kind then take
      else unexpected kinds
  | none => unexpected kinds

/-- Take the current token, which must have this kind. -/
def expect (kind : Kind) : Parsing Token :=
  expectAny [kind]

/-- Move past all line breaks. -/
def skipNewlines : Nat → Parsing Unit
  | 0 => exhausted
  | fuel + 1 => do
      if ← advanceIf .newline then skipNewlines fuel
      else return ()

/-- Parse with one more production on the trail, which is taken off at the end. -/
def within (name : String) (parsing : Parsing α) : Parsing α := do
  modify fun parser => parser.within name
  try parsing finally modify Parser.without

/-! ## Lists of items -/

/-- A round of the loop over items with commas between them: an item, and whether another one
    follows. -/
def listRound (item : Parsing α) : Parsing (α × Bool) := do
  let value ← item
  return (value, ← advanceIf .comma)

/-- One or more items with commas between them. -/
def separated (item : Parsing α) : Nat → Parsing (List α)
  | 0 => exhausted
  | fuel + 1 => do
      let (value, more) ← listRound item
      if more then return value :: (← separated item fuel)
      else return [value]

/-- Items between parentheses, with commas between them; there may be none. -/
def parenthesized (item : Parsing α) (fuel : Nat) : Parsing (List α) := do
  let _ ← expect .leftParen
  let items ←
    if (← currentKind) = some .rightParen then pure []
    else separated item fuel
  let _ ← expect .rightParen
  return items

/-! ## Expressions and calls -/

/-- A callee and an opening parenthesis come next. -/
def atCall : Parsing Bool := do
  match ← currentKind, ← nextKind with
  | some kind, some next => return callees.contains kind && next == .leftParen
  | _, _ => return false

/-- One operand, or two with an operator between them. -/
def expression : Parsing Expression :=
  within "expression" do
    let left ← expectAny operands
    match ← takeIf? Kind.isMathOperator with
    | some operator => return ⟨left, some (operator, ← expectAny operands)⟩
    | none => return ⟨left, none⟩

/-- One expression, or two with a comparator between them. -/
def comparison : Parsing Comparison :=
  within "comparison" do
    let left ← expression
    match ← takeIf? Kind.isComparator with
    | some comparator => return ⟨left, some (comparator, ← expression)⟩
    | none => return ⟨left, none⟩

/-- An argument: a call or an operand. -/
def argument (call : Parsing (Token × List Value)) : Parsing Value := do
  if ← atCall then
    let (callee, arguments) ← call
    return .call callee arguments
  else return .terminal (← expectAny operands)

/-- A call, as its callee and its arguments. -/
def call : Nat → Parsing (Token × List Value)
  | 0 => exhausted
  | fuel + 1 =>
      within "call" do
        let callee ← expectAny callees
        let arguments ← parenthesized (argument (call fuel)) fuel
        return (callee, arguments)

/-- The value of a declaration after it was tried as a call in vain. The cursor goes back for a
    literal, unless what comes next has the shape of a call. -/
def literalAfter (shaped : Bool) (checkpoint : Nat) (failure : Failure) : Parsing Value := do
  if shaped then throw failure
  report (.notACall failure)
  rewind checkpoint
  return .terminal (← expectAny literals)

/-- The initial value of a declaration: a call or a literal. -/
def initialValue (fuel : Nat) : Parsing Value := do
  let shaped ← atCall
  let checkpoint ← look Parser.position
  tryCatch
    (do
      let (callee, arguments) ← call fuel
      return .call callee arguments)
    (literalAfter shaped checkpoint)

/-! ## Statements -/

/-- A name with its type and initial value. -/
def declaration (fuel : Nat) : Parsing Statement :=
  within "declaration" do
    let name ← expect .identifier
    let _ ← expect .colon
    let type ← expect .identifier
    let _ ← expect .assign
    return .declaration name type (← initialValue fuel)

/-- A new value for a name. -/
def manipulation : Parsing Statement :=
  within "manipulation" do
    let target ← expect .identifier
    let _ ← expect .assign
    return .manipulation target (← expression)

/-- A call as a statement. -/
def callStatement (fuel : Nat) : Parsing Statement := do
  let (callee, arguments) ← call fuel
  return .call callee arguments

/-- The result of a function. -/
def returnValue : Parsing Statement :=
  within "return" do
    let keyword ← expect .returnWord
    return .returnValue keyword (← expectAny operands)

/-- The end of a line, of a block or of the input comes next. -/
def lineEnd : Parsing Unit := do
  match ← look Parser.current with
  | none => return ()
  | some token =>
      if token.kind = .newline ∨ token.kind = .closeBlock then return ()
      else fail (.expectedLineEnd token)

/-- A statement that starts with a name. -/
def namedStatement (fuel : Nat) : Parsing Statement := do
  match ← nextKind with
  | some .colon => declaration fuel
  | some .assign => manipulation
  | some .leftParen => callStatement fuel
  | _ =>
      advance
      unexpected [.colon, .assign, .leftParen]

/-- A parameter with its type. -/
def parameter : Parsing Parameter := do
  let name ← expect .identifier
  let _ ← expect .colon
  return ⟨name, ← expect .identifier⟩

/-- The result type after an arrow. -/
def resultType : Parsing (Option Token) := do
  if ← advanceIf .arrow then
    let type ← expectAny [.identifier, .nullLiteral]
    return if type.isIdentifier then some type else none
  else return none

/-- Add a definition to those met so far, and leave its placeholder. -/
def hoist (definition : Definition) : Parsing Statement := do
  let index ← look fun parser => parser.functions.length
  report (.hoisted definition.name.lexeme index)
  modify fun parser => { parser with functions := parser.functions ++ [definition] }
  return .hoisted index definition.keyword.line

section Compound

variable (block : Parsing (Block Statement)) (fuel : Nat)

/-- A counting loop. -/
def forRange : Parsing Statement :=
  within "for" do
    let keyword ← expect .forWord
    let counter ← expect .identifier
    let _ ← expect .inWord
    let _ ← expect .range
    let _ ← expect .leftParen
    let start ← expectAny bounds
    let _ ← expect .comma
    let stop ← expectAny bounds
    let _ ← expect .rightParen
    return .forRange keyword counter start stop (← block)

/-- A conditional loop. -/
def whileLoop : Parsing Statement :=
  within "while" do
    let keyword ← expect .whileWord
    let condition ← comparison
    return .whileLoop keyword condition (← block)

/-- A condition and the block it guards. -/
def branch (word : Kind) : Parsing (Branch Statement) := do
  let keyword ← expect word
  let condition ← comparison
  return ⟨keyword, condition, ← block⟩

/-- A round of the loop over the continuations of a chain: another branch, the block for when none
    is taken, or neither. In the last case the cursor goes back over the line breaks. -/
def chainRound : Parsing (Option ChainLink) := do
  let checkpoint ← look Parser.position
  skipNewlines fuel
  match ← currentKind with
  | some .elifWord => return some (.inl (← branch block .elifWord))
  | some .elseWord =>
      advance
      return some (.inr (← block))
  | _ =>
      rewind checkpoint
      return none

/-- What continues a chain after its first branch. -/
def continuation : Nat → Parsing (List (Branch Statement) × Option (Block Statement))
  | 0 => exhausted
  | fuel + 1 => do
      match ← chainRound block (fuel + 1) with
      | some (.inl next) =>
          let (branches, otherwise) ← continuation fuel
          return (next :: branches, otherwise)
      | some (.inr body) => return ([], some body)
      | none => return ([], none)

/-- A chain of branches. -/
def ifChain : Parsing Statement :=
  within "if" do
    let first ← branch block .ifWord
    let (branches, otherwise) ← continuation block fuel
    return .ifChain (first :: branches) otherwise

/-- A definition, which is hoisted when its body has ended. -/
def definition : Parsing Statement :=
  within "function" do
    let keyword ← expect .defWord
    let name ← expect .identifier
    let parameters ← parenthesized parameter fuel
    let returns ← resultType
    hoist ⟨keyword, name, parameters, returns, ← block⟩

/-- A statement, whatever must follow it apart. -/
def statement : Parsing Statement :=
  within "statement" do
    match ← currentKind with
    | some .forWord => forRange block
    | some .whileWord => whileLoop block
    | some .ifWord => ifChain block fuel
    | some .defWord => definition block fuel
    | some .returnWord => returnValue
    | some .print => callStatement fuel
    | some .identifier => namedStatement fuel
    | some .importWord | some .fromWord => fail .lateImport
    | _ => fail (.expectedStatement (← look Parser.current))

/-- A statement and whatever must follow it. -/
def terminatedStatement : Parsing Statement := do
  let result ← statement block fuel
  if result.endsWithBlock then return result
  lineEnd
  return result

/-- A round of the loop over the statements of a block or of a program: a statement, or the end,
    which `close` deals with. -/
def statementRound (close : Parsing Unit) : Parsing (Option Statement) := do
  skipNewlines fuel
  match ← currentKind with
  | none | some .closeBlock =>
      close
      return none
  | some _ => return some (← terminatedStatement block fuel)

/-- The statements of a block or of a program. At their end, `close` is told whether there were
    none. -/
def statements (close : Bool → Parsing Unit) : Nat → Bool → Parsing (List Statement)
  | 0, _ => exhausted
  | fuel + 1, vacant => do
      match ← statementRound block (fuel + 1) (close vacant) with
      | none => return []
      | some first => return first :: (← statements close fuel false)

end Compound

/-! ## Blocks and programs -/

/-- The end of a block, which must have a statement. -/
def closeBlock (vacant : Bool) : Parsing Unit := do
  match ← currentKind with
  | some .closeBlock =>
      if vacant then fail .emptyBlock
      advance
  | _ => fail .unterminatedBlock

/-- A block. -/
def block : Nat → Parsing (Block Statement)
  | 0 => exhausted
  | fuel + 1 =>
      within "block" do
        let line ← look Parser.currentLine
        let _ ← expect .colon
        let _ ← expect .newline
        return ⟨line, ← statements (block fuel) closeBlock fuel true⟩

/-- The import clause, which has to name the runtime. -/
def importClause : Parsing ImportClause :=
  within "import" do
    let line ← look Parser.currentLine
    let clause ←
      match ← currentKind with
      | some .importWord =>
          advance
          pure ⟨← expect .identifier, none, line⟩
      | some .fromWord =>
          advance
          let module ← expect .identifier
          let _ ← expect .importWord
          pure ⟨module, some (← expectAny [.star, .identifier]), line⟩
      | _ => fail .missingImport
    if clause.module.lexeme ≠ runtimeModule then failOn clause.module.line .missingImport
    return clause

/-- The end of a program is the end of the input. -/
def closeProgram : Parsing Unit := do
  match ← currentKind with
  | some _ => fail .strayBlockEnd
  | none => return ()

/-- Hand over the definitions met so far, of which none is kept. -/
def takeFunctions : Parsing (List Definition) :=
  modifyGet fun parser => (parser.functions, { parser with functions := [] })

/-- The import clause and the statements of a program. -/
def programParts (fuel : Nat) : Parsing (ImportClause × List Statement) := do
  skipNewlines fuel
  let clause ← importClause
  lineEnd
  return (clause, ← statements (block fuel) (fun _ => closeProgram) fuel true)

/-- A whole program. -/
def program (fuel : Nat) : Parsing Program :=
  within "program" do
    let (clause, body) ← programParts fuel
    return ⟨clause, body, ← takeFunctions⟩

end Parsing

end Offside
