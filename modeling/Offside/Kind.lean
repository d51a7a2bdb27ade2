/-!
# Token kinds

The closed set of token kinds of the source dialect. A kind carries no text of
its own: two operators spelled alike have the same kind, and the spelling of a
name or literal is kept by its token. Diagnostics name a kind through
`describe`.
-/

namespace Offside

/-- The kind of a token. The two block delimiters are asymmetric: a block opens
    at a colon that ends its line, so only its end has a kind, `closeBlock`. -/
inductive Kind where
  /-- A byte that starts no token. -/
  | illegal
  | importWord
  | fromWord
  | forWord
  | inWord
  | ifWord
  | elifWord
  | elseWord
  | classWord
  | whileWord
  | defWord
  | returnWord
  /-- The builtin function `print`. -/
  | print
  /-- The builtin function `range`. -/
  | range
  | notWord
  | andWord
  | orWord
  | plus
  | minus
  /-- Multiplication, or everything in an import clause. -/
  | star
  | slash
  | percent
  | identifier
  | newline
  /-- One level of indentation, before layout is resolved. -/
  | indent
  /-- The end of a block, after layout is resolved. -/
  | closeBlock
  | leftParen
  | rightParen
  | leftBracket
  | rightBracket
  | leftBrace
  | rightBrace
  | comma
  | colon
  | assign
  | arrow
  | boolLiteral
  /-- A number, whether or not it has a point. -/
  | intLiteral
  | stringLiteral
  | nullLiteral
  | equal
  | notEqual
  | greater
  | greaterEqual
  | less
  | lessEqual
  deriving DecidableEq, Repr, Inhabited

namespace Kind

/-- The name of a kind in diagnostics. Kinds with one spelling are named by it,
    between grave accents. -/
def describe : Kind → String
  | illegal => "illegal character"
  | importWord => "`import`"
  | fromWord => "`from`"
  | forWord => "`for`"
  | inWord => "`in`"
  | ifWord => "`if`"
  | elifWord => "`elif`"
  | elseWord => "`else`"
  | classWord => "`class`"
  | whileWord => "`while`"
  | defWord => "`def`"
  | returnWord => "`return`"
  | print => "`print`"
  | range => "`range`"
  | notWord => "`not`"
  | andWord => "`and`"
  | orWord => "`or`"
  | plus => "`+`"
  | minus => "`-`"
  | star => "`*`"
  | slash => "`/`"
  | percent => "`%`"
  | identifier => "identifier"
  | newline => "newline"
  | indent => "indentation"
  | closeBlock => "end of block"
  | leftParen => "`(`"
  | rightParen => "`)`"
  | leftBracket => "`[`"
  | rightBracket => "`]`"
  | leftBrace => "`\x7b`"
  | rightBrace => "`\x7d`"
  | comma => "`,`"
  | colon => "`:`"
  | assign => "`=`"
  | arrow => "`->`"
  | boolLiteral => "boolean literal"
  | intLiteral => "integer literal"
  | stringLiteral => "string literal"
  | nullLiteral => "`None`"
  | equal => "`==`"
  | notEqual => "`!=`"
  | greater => "`>`"
  | greaterEqual => "`>=`"
  | less => "`<`"
  | lessEqual => "`<=`"

/-- The operators that may join the two operands of an expression. -/
def isMathOperator : Kind → Bool
  | plus | minus | star | slash | percent => true
  | _ => false

/-- The operators that may join the two expressions of a condition. -/
def isComparator : Kind → Bool
  | equal | notEqual | greater | greaterEqual | less | lessEqual => true
  | _ => false

/-- The names of several kinds as alternatives of one another. -/
def describeAny (kinds : List Kind) : String :=
  String.intercalate " or " (kinds.map describe)

end Kind

end Offside
