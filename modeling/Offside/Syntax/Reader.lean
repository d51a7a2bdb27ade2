import Offside.Event
import Offside.Syntax.Tree

/-!
# Reading tokens

A reader consumes tokens from the front of a list. It knows the productions it
stands in, for the trail of a diagnostic, and it collects the definitions it
meets. A failed reader keeps its state, so whoever tries an alternative sees how
far the first attempt came.

Going back is explicit: a reader remembers the unread tokens and restores them
with `rewind`. Only the unread tokens go back; definitions and events stay.
-/

namespace Offside

/-- What keeps a token list from being a program. `found` is the current token,
    or nothing at the end of the input. -/
inductive SyntaxFault where
  /-- The first statement does not import the runtime. -/
  | missingImport
  /-- An import clause anywhere else. -/
  | lateImport
  | strayBlockEnd
  | expectedStatement (found : Option Token)
  | expectedLineEnd (found : Option Token)
  | emptyBlock
  | unterminatedBlock
  | expected (kinds : List Kind) (found : Option Token)
  deriving DecidableEq, Repr

/-- The module that every program imports. -/
def runtimeModule : String := "GoType"

namespace SyntaxFault

/-- The current token in a message: layout by its kind, all else by its text. -/
def describeFound : Option Token → String
  | none => "end of input"
  | some token =>
      if token.kind = .newline ∨ token.kind = .closeBlock then token.kind.describe
      else "`" ++ token.lexeme ++ "`"

/-- The wording of a fault. -/
def message : SyntaxFault → String
  | missingImport => "source should start with \"from " ++ runtimeModule ++ " import *\""
  | lateImport => "the import clause must be the first statement"
  | strayBlockEnd => "unexpected end of block outside any block"
  | expectedStatement found => "expected a statement, got " ++ describeFound found
  | expectedLineEnd found => "expected end of line, got " ++ describeFound found
  | emptyBlock => "expected an indented block"
  | unterminatedBlock => "unterminated block"
  | expected kinds found =>
      "expected " ++ Kind.describeAny kinds ++ ", got " ++ describeFound found

end SyntaxFault

namespace Reader

/-- What stays the same inside a production. -/
structure Context where
  /-- The productions the reader stands in, outermost first. -/
  trail : List String
  /-- The length of the whole token list. -/
  size : Nat
  /-- The line to blame at the end of the input. -/
  lastLine : Nat

/-- What reading changes. -/
structure State where
  rest : List Token
  /-- The definitions met so far, each added when its body has ended. -/
  functions : List Definition
  events : Array Event

end Reader

/-- Reads a part of a program. -/
abbrev Reader := ReaderT Reader.Context (EStateM Failure Reader.State)

namespace Reader

variable {α : Type}

/-- Read with one more production on the trail. -/
def production (name : String) (reader : Reader α) : Reader α :=
  fun context => reader { context with trail := context.trail ++ [name] }

/-- Report one event. -/
def report (event : Event) : Reader Unit :=
  modify fun state => { state with events := state.events.push event }

/-- The unread tokens. -/
def unread : Reader (List Token) :=
  return (← get).rest

/-- The current token. -/
def current : Reader (Option Token) :=
  return (← unread).head?

/-- The kind of the current token. -/
def currentKind : Reader (Option Kind) :=
  return (← current).map Token.kind

/-- The kind of the token after the current one. -/
def nextKind : Reader (Option Kind) :=
  return (← unread)[1]?.map Token.kind

/-- The line of the current token, or of the last token at the end of the
    input. -/
def currentLine : Reader Nat :=
  return ((← current).map Token.line).getD (← read).lastLine

/-- How many tokens have been read. -/
def position : Reader Nat :=
  return (← read).size - (← unread).length

/-- Give up with a fault on a line. -/
def failOn (line : Nat) (fault : SyntaxFault) : Reader α := do
  throw (.parse ⟨(← read).trail, line, fault.message⟩)

/-- Give up with a fault at the current token. -/
def fail (fault : SyntaxFault) : Reader α := do
  failOn (← currentLine) fault

/-- Give up because the current token is none of these kinds. -/
def unexpected (kinds : List Kind) : Reader α := do
  fail (.expected kinds (← current))

/-- Move past the current token, if there is one. -/
def advance : Reader Unit :=
  modify fun state => { state with rest := state.rest.tail }

/-- Move past all line breaks. -/
def skipNewlines : Reader Unit :=
  modify fun state =>
    { state with rest := state.rest.dropWhile (fun token => token.kind == .newline) }

/-- Take the current token if its kind is admitted. -/
def accept? (admitted : Kind → Bool) : Reader (Option Token) := do
  match ← current with
  | some token =>
      if admitted token.kind then
        advance
        return some token
      else return none
  | none => return none

/-- Take the current token, which must have one of these kinds. -/
def expectAny (kinds : List Kind) : Reader Token := do
  match ← accept? (fun kind => kinds.contains kind) with
  | some token => return token
  | none => unexpected kinds

/-- Take the current token, which must have this kind. -/
def expect (kind : Kind) : Reader Token :=
  expectAny [kind]

/-- Make `checkpoint` the unread tokens again. -/
def rewind (checkpoint : List Token) : Reader Unit := do
  let start ← position
  report (.rewound start ((← read).size - checkpoint.length))
  modify fun state => { state with rest := checkpoint }

/-- Items with commas between them, at most `bound + 1` of them. -/
def separatedWithin (item : Reader α) : Nat → Reader (List α)
  | 0 => return [← item]
  | bound + 1 => do
      let first ← item
      match ← accept? (· == .comma) with
      | some _ => return first :: (← separatedWithin item bound)
      | none => return [first]

/-- One or more items with commas between them. A comma is a token, so the
    unread tokens bound their number. -/
def separated (item : Reader α) : Reader (List α) := do
  separatedWithin item (← unread).length

/-- Items between parentheses, with commas between them; there may be none. -/
def parenthesized (item : Reader α) : Reader (List α) := do
  let _ ← expect .leftParen
  let items ←
    if (← currentKind) = some .rightParen then pure []
    else separated item
  let _ ← expect .rightParen
  return items

end Reader

end Offside
