import Offside.Kind

/-!
# Tokens

A token keeps its kind, the text it was scanned from and the line it stands on.
Syntax trees have tokens as their leaves, so a later phase can name the exact
place and spelling of whatever it rejects.
-/

namespace Offside

/-- One token. Lines are counted from one. -/
structure Token where
  kind : Kind
  lexeme : String
  line : Nat
  deriving DecidableEq, Repr

namespace Token

/-- The token that ends a line, however the line break was spelled. -/
def newline (line : Nat) : Token :=
  ⟨.newline, "\n", line⟩

/-- One level of indentation at the start of a line. -/
def indent (line : Nat) : Token :=
  ⟨.indent, "    ", line⟩

/-- The end of a block. It has no text of its own. -/
def closeBlock (line : Nat) : Token :=
  ⟨.closeBlock, "", line⟩

/-- A token that spells a name. -/
def isIdentifier (token : Token) : Bool :=
  token.kind == .identifier

/-- The line of the last token; an empty list is taken to end on line one. -/
def lastLine (tokens : List Token) : Nat :=
  (tokens.getLast?.map Token.line).getD 1

end Token

end Offside
