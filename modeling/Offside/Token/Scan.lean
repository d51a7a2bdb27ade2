import Offside.Builtin
import Offside.Diagnostic
import Offside.Text.Utf8
import Offside.Token

/-!
# Scanning

A source is cut into pieces from left to right, each as long as its class
allows. A piece always has its first byte, and `Piece.front` says how many of
the bytes after it belong to the same piece, so the unread bytes shrink with
every piece and scanning needs no bound.

Indentation is read as a whole at every line start: each full group of four
spaces is one token and a shorter remainder is dropped. What the levels mean is
decided by layout, not here. Bytes that start no piece become illegal tokens,
one for each byte; a later phase rejects them.
-/

namespace Offside

/-- What keeps a source from being scanned. -/
inductive LexicalFault where
  | missingInput
  | unterminatedString
  /-- A number that goes on past its last digit. -/
  | danglingNumber (text : String)
  deriving DecidableEq, Repr

namespace LexicalFault

/-- The wording of a fault. -/
def message : LexicalFault → String
  | missingInput => "missing input"
  | unterminatedString => "unterminated string literal"
  | danglingNumber text => "numbers must end with a digit, got `" ++ text ++ "`"

/-- The phase, and the kind of literal that was being read. -/
def trail : LexicalFault → List String
  | missingInput => ["lex"]
  | unterminatedString => ["lex", "string"]
  | danglingNumber _ => ["lex", "number"]

/-- The fault reported at a line. -/
def onLine (fault : LexicalFault) (line : Nat) : Failure :=
  .lexical ⟨fault.trail, line, fault.message⟩

end LexicalFault

/-- The reserved words. -/
def Kind.keywords : List (String × Kind) :=
  [("import", .importWord), ("from", .fromWord), ("for", .forWord), ("in", .inWord),
    ("if", .ifWord), ("elif", .elifWord), ("else", .elseWord), ("class", .classWord),
    ("while", .whileWord), ("def", .defWord), ("return", .returnWord)]

/-- The words that read as operators or as literals. -/
def Kind.valueWords : List (String × Kind) :=
  [("not", .notWord), ("and", .andWord), ("or", .orWord),
    ("True", .boolLiteral), ("False", .boolLiteral), ("None", .nullLiteral)]

/-- The kind of a word: reserved, then builtin, then operator or literal, and a
    plain name otherwise. -/
def Kind.ofWord (word : String) : Kind :=
  match keywords.lookup word with
  | some kind => kind
  | none =>
      match Builtin.ofName? word with
      | some builtin => builtin.kind
      | none => (valueWords.lookup word).getD .identifier

/-- The operators and delimiters of one character. -/
def Kind.ofSymbol : Char → Kind
  | '(' => .leftParen
  | ')' => .rightParen
  | '[' => .leftBracket
  | ']' => .rightBracket
  | '\x7b' => .leftBrace
  | '\x7d' => .rightBrace
  | ',' => .comma
  | ':' => .colon
  | '+' => .plus
  | '-' => .minus
  | '*' => .star
  | '/' => .slash
  | '%' => .percent
  | '=' => .assign
  | '>' => .greater
  | '<' => .less
  | _ => .illegal

/-- The operators of two characters. -/
def Kind.ofPair? : Char → Char → Option Kind
  | '-', '>' => some .arrow
  | '=', '=' => some .equal
  | '!', '=' => some .notEqual
  | '>', '=' => some .greaterEqual
  | '<', '=' => some .lessEqual
  | _, _ => none

/-- A byte as a character. Bytes outside ASCII give characters that no class
    below contains. -/
def byteChar (byte : UInt8) : Char :=
  Char.ofNat byte.toNat

/-- Letters, digits and the underscore continue a word. -/
def isWordByte (byte : UInt8) : Bool :=
  (byteChar byte).isAlphanum || byteChar byte == '_'

/-- Digits, underscores and points continue a number. -/
def isNumberByte (byte : UInt8) : Bool :=
  (byteChar byte).isDigit || byteChar byte == '_' || byteChar byte == '.'

/-- A string literal holds everything but quotes and the two line break
    characters. -/
def isStringByte (byte : UInt8) : Bool :=
  byteChar byte != '"' && byteChar byte != '\n' && byteChar byte != '\r'

/-- The blank of the dialect. Tabs are not blanks. -/
def isSpace (byte : UInt8) : Bool :=
  byteChar byte == ' '

/-- A line break stands at the front: a line feed, or a carriage return and a
    line feed. -/
def startsLineBreak : List UInt8 → Bool
  | [] => false
  | byte :: rest =>
      byteChar byte == '\n' ||
        (byteChar byte == '\r' && (rest.head?.map byteChar) == some '\n')

/-- The length of a comment's text: everything before the line break. -/
def commentLength : List UInt8 → Nat
  | [] => 0
  | byte :: rest =>
      if startsLineBreak (byte :: rest) then 0 else commentLength rest + 1

/-- What stands at the front of the unread bytes. -/
inductive Piece where
  /-- A space or a comment: no token. -/
  | gap
  | lineBreak
  | lexeme (kind : Kind)
  /-- A string literal that its line does not close. -/
  | openString
  /-- A number that does not end in a digit. -/
  | openNumber
  deriving DecidableEq, Repr

/-- The piece that starts with `byte`, and how many bytes of `rest` belong to
    it. Runs are as long as possible, and an operator of two characters is
    preferred to its first character. -/
def Piece.front (byte : UInt8) (rest : List UInt8) : Piece × Nat :=
  let char := byteChar byte
  if isSpace byte then (.gap, 0)
  else if char = '\n' then (.lineBreak, 0)
  else if startsLineBreak (byte :: rest) then (.lineBreak, 1)
  else if char = '#' then (.gap, commentLength rest)
  else if char = '"' then
    let body := rest.takeWhile isStringByte
    if (rest[body.length]?.map byteChar) = some '"' then
      (.lexeme .stringLiteral, body.length + 1)
    else (.openString, body.length)
  else if char.isDigit then
    let run := rest.takeWhile isNumberByte
    if (byteChar (run.getLastD byte)).isDigit then (.lexeme .intLiteral, run.length)
    else (.openNumber, run.length)
  else if char.isAlpha then
    let run := rest.takeWhile isWordByte
    (.lexeme (Kind.ofWord (Utf8.decode (byte :: run))), run.length)
  else
    match rest.head?.bind (fun next => Kind.ofPair? char (byteChar next)) with
    | some kind => (.lexeme kind, 1)
    | none => (.lexeme (Kind.ofSymbol char), 0)

namespace Token

/-- The number of spaces that make one level of indentation. -/
def indentWidth : Nat := 4

/-- The indentation tokens of a line that starts at the front of `bytes`. -/
def indentation (line : Nat) (bytes : List UInt8) : List Token :=
  List.replicate ((bytes.takeWhile isSpace).length / indentWidth) (Token.indent line)

/-- Dropping the leading spaces of a line makes its bytes no more. -/
theorem length_unindented_le (bytes : List UInt8) :
    (bytes.dropWhile isSpace).length ≤ bytes.length :=
  (List.dropWhile_sublist isSpace).length_le

/-- The tokens of the bytes that follow the indentation of line `line`. -/
def scanLines (line : Nat) : List UInt8 → Except Failure (List Token)
  | [] => .ok []
  | byte :: rest =>
      let unread := rest.drop (Piece.front byte rest).2
      let text := Utf8.decode (byte :: rest.take (Piece.front byte rest).2)
      match (Piece.front byte rest).1 with
      | .gap => scanLines line unread
      | .lineBreak => do
          let later ← scanLines (line + 1) (unread.dropWhile isSpace)
          return Token.newline line :: (indentation (line + 1) unread ++ later)
      | .lexeme kind => do
          let later ← scanLines line unread
          return ⟨kind, text, line⟩ :: later
      | .openString => .error (LexicalFault.unterminatedString.onLine line)
      | .openNumber => .error ((LexicalFault.danglingNumber text).onLine line)
termination_by bytes => bytes.length
decreasing_by
  all_goals
    have shorter : (rest.drop (Piece.front byte rest).2).length < rest.length + 1 := by
      simp only [List.length_drop]; omega
    have unindented := length_unindented_le (rest.drop (Piece.front byte rest).2)
    simp only [List.length_cons]
    omega

/-- The tokens of a source. An empty source is a fault. -/
def scan (source : List UInt8) : Except Failure (List Token) :=
  if source.isEmpty then .error (LexicalFault.missingInput.onLine 1)
  else do
    let later ← scanLines 1 (source.dropWhile isSpace)
    return indentation 1 source ++ later

end Token

end Offside
