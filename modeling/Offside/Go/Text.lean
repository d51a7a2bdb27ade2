import Offside.Text.Lowercase
import Offside.Token

/-!
# Go text

How single tokens are spelled in Go, and how lines of Go are laid out: one tab
for each level, then the text. Blank lines have no tabs.
-/

namespace Offside.Go

/-- The spelling of a token in Go. Words and operators with an equivalent of
    their own are replaced by it, names and literals stand as they are, and
    tokens that only shape the source have no spelling. -/
def spelling? (token : Token) : Option String :=
  match token.kind with
  | .ifWord => some "if"
  | .elifWord => some "else if"
  | .elseWord => some "else"
  | .whileWord => some "for"
  | .forWord => some "for"
  | .defWord => some "func"
  | .returnWord => some "return"
  | .print => some "println"
  | .notWord => some "!"
  | .andWord => some "&&"
  | .orWord => some "||"
  | .nullLiteral => some "nil"
  | .boolLiteral => some (Text.lowercase token.lexeme)
  | .identifier | .intLiteral | .stringLiteral
  | .plus | .minus | .star | .slash | .percent
  | .equal | .notEqual | .greater | .greaterEqual | .less | .lessEqual
  | .leftParen | .rightParen | .leftBracket | .rightBracket | .leftBrace | .rightBrace
  | .comma | .assign => some token.lexeme
  | .illegal | .importWord | .fromWord | .inWord | .classWord | .range
  | .newline | .indent | .closeBlock | .colon | .arrow => none

/-- A line of Go. -/
inductive Line where
  | blank
  | code (depth : Nat) (text : String)
  deriving DecidableEq, Repr

/-- A line with its tabs and its line feed. -/
def Line.render : Line → String
  | blank => "\n"
  | code depth text => String.ofList (List.replicate depth '\t') ++ text ++ "\n"

/-- The text of several lines. -/
def Line.renderAll (lines : List Line) : String :=
  String.join (lines.map Line.render)

end Offside.Go
