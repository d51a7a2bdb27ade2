import Mathlib
import Offside.Proofs.Text.Encoding
import Offside.Token.Scan

/-!
# Spellings

Which texts a token of each kind may have, and that scanning gives the token back
when its text is followed by a blank or a line break. A word, a number and a
string literal are free within their shape; every other kind has one spelling, or
two in the case of truth values.

Only what follows the text matters, and only its first byte: it must not be able
to continue the piece. A blank continues none.
-/

namespace Offside

/-- The words that are no names. -/
def Token.reserved : List String :=
  ["import", "from", "for", "in", "if", "elif", "else", "class", "while", "def", "return",
    "print", "range", "not", "and", "or", "True", "False", "None"]

/-- A letter, and then letters, digits and underscores. -/
def WordShape (text : List Char) : Prop :=
  ∃ first rest, text = first :: rest ∧ first.isAlpha = true ∧
    ∀ char ∈ rest, char.isAlphanum = true ∨ char = '_'

/-- Digits, underscores and points, with a digit at either end. -/
def NumberShape (text : List Char) : Prop :=
  ∃ first rest, text = first :: rest ∧ first.isDigit = true ∧
    (∀ char ∈ rest, char.isDigit = true ∨ char = '_' ∨ char = '.') ∧
    (rest.getLastD first).isDigit = true

/-- Any characters between quotes, except quotes and the two line break
    characters. -/
def StringShape (text : List Char) : Prop :=
  ∃ body, text = '"' :: (body ++ ['"']) ∧
    ∀ char ∈ body, char ≠ '"' ∧ char ≠ '\n' ∧ char ≠ '\r'

/-- The text of a kind that has only one. -/
def Kind.spelling? : Kind → Option String
  | .importWord => some "import"
  | .fromWord => some "from"
  | .forWord => some "for"
  | .inWord => some "in"
  | .ifWord => some "if"
  | .elifWord => some "elif"
  | .elseWord => some "else"
  | .classWord => some "class"
  | .whileWord => some "while"
  | .defWord => some "def"
  | .returnWord => some "return"
  | .print => some "print"
  | .range => some "range"
  | .notWord => some "not"
  | .andWord => some "and"
  | .orWord => some "or"
  | .nullLiteral => some "None"
  | .plus => some "+"
  | .minus => some "-"
  | .star => some "*"
  | .slash => some "/"
  | .percent => some "%"
  | .leftParen => some "("
  | .rightParen => some ")"
  | .leftBracket => some "["
  | .rightBracket => some "]"
  | .leftBrace => some "\x7b"
  | .rightBrace => some "\x7d"
  | .comma => some ","
  | .colon => some ":"
  | .assign => some "="
  | .arrow => some "->"
  | .equal => some "=="
  | .notEqual => some "!="
  | .greater => some ">"
  | .greaterEqual => some ">="
  | .less => some "<"
  | .lessEqual => some "<="
  | _ => none

/-- The token has a text that its kind may have. Line breaks, indentation, block
    ends and illegal bytes are not spelled out. -/
def Token.Spelled (token : Token) : Prop :=
  match token.kind with
  | .identifier => WordShape token.lexeme.toList ∧ token.lexeme ∉ Token.reserved
  | .intLiteral => NumberShape token.lexeme.toList
  | .stringLiteral => StringShape token.lexeme.toList
  | .boolLiteral => token.lexeme = "True" ∨ token.lexeme = "False"
  | kind => kind.spelling? = some token.lexeme

/-- A blank or a line break stands first. -/
def Apart (bytes : List UInt8) : Prop :=
  ∃ byte later, bytes = byte :: later ∧ (byte = 0x20 ∨ byte = 0x0A)

/-- The byte of a character of the first 128. -/
def charByte (char : Char) : UInt8 :=
  UInt8.ofNat char.toNat

/-- The byte of a character below 128 is read back as that character. -/
theorem byteChar_charByte {char : Char} (ascii : char.toNat < 128) :
    byteChar (charByte char) = char := by
  rw [byteChar, charByte, Utf8.toNat_byte (by omega)]
  exact Char.ofNat_toNat char

/-- A character of the first 128 is encoded as its byte alone. -/
theorem encodeChar_ascii {char : Char} (ascii : char.toNat < 128) :
    String.utf8EncodeChar char = [charByte char] := by
  have small : char.val.toNat ≤ 0x7F := Nat.le_of_lt_succ ascii
  simp only [String.utf8EncodeChar, small, if_true]
  rfl

/-- A text of characters of the first 128 is encoded character by character. Every spelling but that
    of a string literal is such a text. -/
theorem encode_ascii {chars : List Char} (ascii : ∀ char ∈ chars, char.toNat < 128) :
    chars.flatMap String.utf8EncodeChar = chars.map charByte := by
  induction chars with
  | nil => rfl
  | cons char chars ih =>
      rw [List.flatMap_cons, List.map_cons, encodeChar_ascii (ascii char (by simp)),
        ih fun other member => ascii other (List.mem_cons_of_mem char member)]
      rfl

/-- A character that starts no blank, line break, comment or string. -/
def StartsPiece (char : Char) : Prop :=
  char.toNat < 128 ∧ char ≠ ' ' ∧ char ≠ '\n' ∧ char ≠ '\r' ∧ char ≠ '#' ∧ char ≠ '"'

/-- Letters and digits are among the first 128 characters, since only those of ASCII count. -/
theorem ascii_of_alphanum {char : Char} (alphanumeric : char.isAlphanum = true) :
    char.toNat < 128 := by
  simp only [Char.isAlphanum, Char.isAlpha, Char.isUpper, Char.isLower, Char.isDigit,
    Bool.or_eq_true, Bool.and_eq_true, decide_eq_true_eq, ge_iff_le, UInt32.le_iff_toNat_le]
    at alphanumeric
  have lastUpper : 'Z'.val.toNat = 90 := rfl
  have lastLower : 'z'.val.toNat = 122 := rfl
  have lastDigit : '9'.val.toNat = 57 := rfl
  change char.val.toNat < 128
  omega

/-- A letter or a digit starts a piece of its own, and no blank, line break, comment or string. -/
theorem startsPiece_of_alphanum {char : Char} (alphanumeric : char.isAlphanum = true) :
    StartsPiece char := by
  refine ⟨ascii_of_alphanum alphanumeric, ?_, ?_, ?_, ?_, ?_⟩ <;>
  · rintro rfl
    revert alphanumeric
    decide

/-- The byte of such a character is no space, so it is not skipped as a gap and does not count as
    indentation. -/
theorem isSpace_charByte {char : Char} (starts : StartsPiece char) :
    isSpace (charByte char) = false := by
  simp [isSpace, byteChar_charByte starts.1, starts.2.1]

/-- What stands at the front after the pieces with a mark of their own are ruled
    out. -/
theorem front_startsPiece {char : Char} (starts : StartsPiece char) (rest : List UInt8) :
    Piece.front (charByte char) rest =
      if char.isDigit then
        if (byteChar ((rest.takeWhile isNumberByte).getLastD (charByte char))).isDigit then
          (.lexeme .intLiteral, (rest.takeWhile isNumberByte).length)
        else (.openNumber, (rest.takeWhile isNumberByte).length)
      else if char.isAlpha then
        (.lexeme (Kind.ofWord (Utf8.decode (charByte char :: rest.takeWhile isWordByte))),
          (rest.takeWhile isWordByte).length)
      else
        match rest.head?.bind (fun next => Kind.ofPair? char (byteChar next)) with
        | some kind => (.lexeme kind, 1)
        | none => (.lexeme (Kind.ofSymbol char), 0) := by
  obtain ⟨ascii, notBlank, notBreak, notReturn, notComment, notQuote⟩ := starts
  have named := byteChar_charByte ascii
  generalize charByte char = byte at named ⊢
  subst named
  -- the branches before the last three are passed in the order of the definition
  calc Piece.front byte rest
    _ = _ := if_neg (by simp [isSpace, notBlank])
    _ = _ := if_neg notBreak
    _ = _ := if_neg (by simp [startsLineBreak, notBreak, notReturn])
    _ = _ := if_neg notComment
    _ = _ := if_neg notQuote

/-- A run of bytes of one class ends where the class does, in front of a blank or a line break that
    the class does not admit. -/
theorem takeWhile_apart {admitted : UInt8 → Bool} {run rest : List UInt8}
    (inside : ∀ byte ∈ run, admitted byte = true) (apart : Apart rest)
    (blank : admitted 0x20 = false) (lineBreak : admitted 0x0A = false) :
    (run ++ rest).takeWhile admitted = run := by
  rw [List.takeWhile_append_of_pos inside]
  obtain ⟨byte, later, rfl, rfl | rfl⟩ := apart
  · simp [blank]
  · simp [lineBreak]

/-- A character that may stand inside a word has a byte that continues a word. -/
theorem isWordByte_charByte {char : Char} (continues : char.isAlphanum = true ∨ char = '_') :
    isWordByte (charByte char) = true := by
  rcases continues with alphanumeric | rfl
  · simp [isWordByte, byteChar_charByte (ascii_of_alphanum alphanumeric), alphanumeric]
  · decide

/-- A character that may stand inside a number has a byte that continues a number. -/
theorem isNumberByte_charByte {char : Char}
    (continues : char.isDigit = true ∨ char = '_' ∨ char = '.') :
    isNumberByte (charByte char) = true := by
  rcases continues with digit | rfl | rfl
  · have alphanumeric : char.isAlphanum = true := by simp [Char.isAlphanum, digit]
    simp [isNumberByte, byteChar_charByte (ascii_of_alphanum alphanumeric), digit]
  · decide
  · decide

/-- The front of the bytes of a token, when something follows that cannot continue
    it: the first byte is no blank, and the rest of the bytes is what belongs to
    it. -/
def FrontIs (kind : Kind) (text : List Char) (rest : List UInt8) : Prop :=
  ∃ byte tail, text.flatMap String.utf8EncodeChar = byte :: tail ∧ isSpace byte = false ∧
    Piece.front byte (tail ++ rest) = (.lexeme kind, tail.length)

/-- A word is scanned whole, and classified by its text. What follows it is a blank or a line break,
    and neither continues a word. -/
theorem front_word {text : List Char} (shape : WordShape text) {rest : List UInt8}
    (apart : Apart rest) : FrontIs (Kind.ofWord (String.ofList text)) text rest := by
  obtain ⟨first, others, rfl, letter, continues⟩ := shape
  have starts : StartsPiece first := startsPiece_of_alphanum (by simp [Char.isAlphanum, letter])
  have ascii : ∀ char ∈ first :: others, char.toNat < 128 := by
    intro char member
    rcases List.mem_cons.mp member with rfl | member
    · exact starts.1
    · rcases continues char member with alphanumeric | rfl
      · exact ascii_of_alphanum alphanumeric
      · decide
  have bytes := encode_ascii ascii
  have run : (others.map charByte ++ rest).takeWhile isWordByte = others.map charByte := by
    apply takeWhile_apart _ apart (by decide) (by decide)
    intro byte member
    obtain ⟨char, isOther, rfl⟩ := List.mem_map.mp member
    exact isWordByte_charByte (continues char isOther)
  have notDigit : first.isDigit = false := by
    simp only [Char.isAlpha, Char.isUpper, Char.isLower, Bool.or_eq_true, Bool.and_eq_true,
      decide_eq_true_eq, ge_iff_le, UInt32.le_iff_toNat_le] at letter
    have firstUpper : 'A'.val.toNat = 65 := rfl
    have firstLower : 'a'.val.toNat = 97 := rfl
    have lastDigit : '9'.val.toNat = 57 := rfl
    rw [← Bool.not_eq_true]
    simp only [Char.isDigit, Bool.and_eq_true, decide_eq_true_eq, ge_iff_le,
      UInt32.le_iff_toNat_le]
    omega
  have decoded : Utf8.decode (charByte first :: others.map charByte) =
      String.ofList (first :: others) := by
    rw [← List.map_cons, ← bytes, Utf8.decode, Utf8.decodeChars_encode]
  refine ⟨charByte first, others.map charByte, bytes, isSpace_charByte starts, ?_⟩
  rw [front_startsPiece starts, run, decoded]
  simp [notDigit, letter]

/-- A number is scanned whole. Its last character decides whether it is a number at all, and the
    induction carries the last digit along the text. -/
theorem front_number {text : List Char} (shape : NumberShape text) {rest : List UInt8}
    (apart : Apart rest) : FrontIs .intLiteral text rest := by
  obtain ⟨first, others, rfl, digit, continues, endsInDigit⟩ := shape
  have alphanumeric {char : Char} (isDigit : char.isDigit = true) : char.isAlphanum = true := by
    simp [Char.isAlphanum, isDigit]
  have starts : StartsPiece first := startsPiece_of_alphanum (alphanumeric digit)
  have ascii : ∀ char ∈ first :: others, char.toNat < 128 := by
    intro char member
    rcases List.mem_cons.mp member with rfl | member
    · exact starts.1
    · rcases continues char member with isDigit | rfl | rfl
      · exact ascii_of_alphanum (alphanumeric isDigit)
      · decide
      · decide
  have run : (others.map charByte ++ rest).takeWhile isNumberByte = others.map charByte := by
    apply takeWhile_apart _ apart (by decide) (by decide)
    intro byte member
    obtain ⟨char, isOther, rfl⟩ := List.mem_map.mp member
    exact isNumberByte_charByte (continues char isOther)
  have last : (others.map charByte).getLastD (charByte first) =
      charByte (others.getLastD first) := by
    clear starts ascii run continues endsInDigit digit
    induction others generalizing first with
    | nil => rfl
    | cons second others ih => simp only [List.map_cons, List.getLastD_cons, ih]
  refine ⟨charByte first, others.map charByte, encode_ascii ascii, isSpace_charByte starts, ?_⟩
  rw [front_startsPiece starts, run, last,
    byteChar_charByte (ascii_of_alphanum (alphanumeric endsInDigit)), if_pos digit,
    if_pos endsInDigit]

/-- A character past the first 128 has no byte of the first 128. -/
theorem large_of_mem_encodeChar {char : Char} (notAscii : ¬ char.toNat < 128) {byte : UInt8}
    (member : byte ∈ String.utf8EncodeChar char) : 128 ≤ byte.toNat := by
  have notSmall : ¬ char.val.toNat ≤ 0x7F := fun small => notAscii (Nat.lt_succ_of_le small)
  unfold String.utf8EncodeChar at member
  simp only [notSmall, if_false] at member
  generalize char.val.toNat = value at member
  split at member
  · simp only [List.mem_cons, List.not_mem_nil, or_false] at member
    rcases member with rfl | rfl <;> rw [Utf8.toNat_byte (by omega)] <;> omega
  · split at member
    · simp only [List.mem_cons, List.not_mem_nil, or_false] at member
      rcases member with rfl | rfl | rfl <;> rw [Utf8.toNat_byte (by omega)] <;> omega
    · simp only [List.mem_cons, List.not_mem_nil, or_false] at member
      rcases member with rfl | rfl | rfl | rfl <;> rw [Utf8.toNat_byte (by omega)] <;> omega

/-- The bytes of a character that may stand in a string literal may stand there
    too. -/
theorem isStringByte_of_mem {char : Char} (allowed : char ≠ '"' ∧ char ≠ '\n' ∧ char ≠ '\r')
    {byte : UInt8} (member : byte ∈ String.utf8EncodeChar char) : isStringByte byte = true := by
  by_cases ascii : char.toNat < 128
  · rw [encodeChar_ascii ascii, List.mem_singleton] at member
    subst member
    simp [isStringByte, byteChar_charByte ascii, allowed]
  · have large := large_of_mem_encodeChar ascii member
    have every : ∀ value < 256, 128 ≤ value → isStringByte (UInt8.ofNat value) = true := by
      decide +kernel
    have this := every byte.toNat byte.toNat_lt large
    rwa [UInt8.ofNat_toNat] at this

/-- A string literal is scanned to its closing quote, and what follows the quote has no influence on
    it. -/
theorem front_string {text : List Char} (shape : StringShape text) (rest : List UInt8) :
    FrontIs .stringLiteral text rest := by
  obtain ⟨body, rfl, allowed⟩ := shape
  have quote : String.utf8EncodeChar '"' = [charByte '"'] := encodeChar_ascii (by decide)
  have bytes : ('"' :: (body ++ ['"'])).flatMap String.utf8EncodeChar =
      charByte '"' :: (body.flatMap String.utf8EncodeChar ++ [charByte '"']) := by
    simp [quote]
  have inside : ∀ byte ∈ body.flatMap String.utf8EncodeChar, isStringByte byte = true := by
    intro byte member
    obtain ⟨char, isBody, isByte⟩ := List.mem_flatMap.mp member
    exact isStringByte_of_mem (allowed char isBody) isByte
  refine ⟨charByte '"', body.flatMap String.utf8EncodeChar ++ [charByte '"'], bytes, by decide, ?_⟩
  generalize body.flatMap String.utf8EncodeChar = content at inside
  have run : (content ++ charByte '"' :: rest).takeWhile isStringByte = content := by
    rw [List.takeWhile_append_of_pos inside]
    simp [show isStringByte (charByte '"') = false by decide]
  have noLineBreak : startsLineBreak (charByte '"' :: (content ++ charByte '"' :: rest)) = false := by
    simp [startsLineBreak, show byteChar (charByte '"') = '"' by decide]
  have closed : byteChar (charByte '"') = '"' := by decide
  simp [Piece.front, run, noLineBreak, show isSpace (charByte '"') = false by decide, closed]

/-- A symbol of one character is scanned alone when no symbol of two characters starts with it here.
    That is so before a blank, by `ofPair?_apart`. -/
theorem front_symbol {char : Char} (starts : StartsPiece char) (noLetter : char.isAlphanum = false)
    {rest : List UInt8}
    (noPair : ∀ byte ∈ rest.head?, Kind.ofPair? char (byteChar byte) = none) :
    FrontIs (Kind.ofSymbol char) [char] rest := by
  have notDigit : char.isDigit = false := by simp_all [Char.isAlphanum]
  have notAlpha : char.isAlpha = false := by simp_all [Char.isAlphanum]
  refine ⟨charByte char, [], encode_ascii (by simpa using starts.1), isSpace_charByte starts, ?_⟩
  rw [front_startsPiece starts, List.nil_append]
  cases rest with
  | nil => simp [notDigit, notAlpha]
  | cons byte rest => simp [notDigit, notAlpha, noPair byte (by simp)]

/-- A symbol of two characters is scanned whole, whatever follows it, because the second character
    is looked at before any other rule for the first one applies. -/
theorem front_pair {first second : Char} {kind : Kind} (starts : StartsPiece first)
    (noLetter : first.isAlphanum = false) (ascii : second.toNat < 128)
    (pair : Kind.ofPair? first second = some kind) (rest : List UInt8) :
    FrontIs kind [first, second] rest := by
  have notDigit : first.isDigit = false := by simp_all [Char.isAlphanum]
  have notAlpha : first.isAlpha = false := by simp_all [Char.isAlphanum]
  refine ⟨charByte first, [charByte second],
    encode_ascii (by simpa using ⟨starts.1, ascii⟩), isSpace_charByte starts, ?_⟩
  rw [front_startsPiece starts, List.cons_append]
  simp [notDigit, notAlpha, byteChar_charByte ascii, pair]

/-- No symbol of two characters ends with a blank or a line break. -/
theorem ofPair?_apart (char : Char) {rest : List UInt8} (apart : Apart rest) :
    ∀ byte ∈ rest.head?, Kind.ofPair? char (byteChar byte) = none := by
  obtain ⟨byte, later, rfl, isApart⟩ := apart
  intro other isFirst
  obtain rfl : byte = other := by simpa using isFirst
  have alone : byteChar byte = ' ' ∨ byteChar byte = '\n' := by
    rcases isApart with rfl | rfl
    · exact Or.inl (by decide)
    · exact Or.inr (by decide)
  unfold Kind.ofPair?
  split
  all_goals simp_all

/-- Whether a text is a letter, and then letters, digits and underscores. -/
def isWord (text : List Char) : Bool :=
  text.head?.any Char.isAlpha && text.all fun char => char.isAlphanum || char == '_'

/-- The test for the shape of a word is right about it. Keywords are put through the test one by
    one. -/
theorem wordShape_of_isWord {text : List Char} (word : isWord text = true) : WordShape text := by
  cases text with
  | nil => simp [isWord] at word
  | cons first rest =>
      simp only [isWord, List.head?_cons, Option.any_some, Bool.and_eq_true, List.all_cons,
        List.all_eq_true, Bool.or_eq_true, beq_iff_eq] at word
      exact ⟨first, rest, rfl, word.1, word.2.2⟩

/-- The text of a kind that has only one is scanned as that kind. -/
theorem front_spelling {kind : Kind} {text : String} (spelled : kind.spelling? = some text)
    {rest : List UInt8} (apart : Apart rest) : FrontIs kind text.toList rest := by
  have word {kind : Kind} {text : String} (isWord : isWord text.toList = true)
      (classified : Kind.ofWord text = kind) : FrontIs kind text.toList rest := by
    have front := front_word (wordShape_of_isWord isWord) apart
    rwa [String.ofList_toList, classified] at front
  have symbol {char : Char} (starts : StartsPiece char) (noLetter : char.isAlphanum = false) :
      FrontIs (Kind.ofSymbol char) [char] rest :=
    front_symbol starts noLetter (ofPair?_apart char apart)
  have starts {char : Char} (ascii : char.toNat < 128)
      (notSpecial : char ∉ [' ', '\n', '\r', '#', '"']) : StartsPiece char := by
    simpa [StartsPiece, ascii] using notSpecial
  cases kind <;> cases spelled <;> first
    | exact word (by decide) (by decide)
    | exact symbol (starts (by decide) (by decide)) (by decide)
    | exact front_pair (starts (by decide) (by decide)) (by decide) (by decide) (by decide) rest

/-- A word that is not reserved is a name, because every other kind of word has all of its spellings
    among the reserved ones. -/
theorem ofWord_of_not_reserved {word : String} (free : word ∉ Token.reserved) :
    Kind.ofWord word = .identifier := by
  have missing {entries : List (String × Kind)}
      (listed : ∀ entry ∈ entries, entry.1 ∈ Token.reserved) : entries.lookup word = none := by
    rw [List.lookup_eq_none_iff]
    intro entry isEntry
    exact bne_iff_ne.mpr fun same => free (same ▸ listed entry isEntry)
  have noKeyword : Kind.keywords.lookup word = none := missing (by decide)
  have noValue : Kind.valueWords.lookup word = none := missing (by decide)
  have noBuiltin : Builtin.ofName? word = none := by
    rw [Builtin.ofName?, List.find?_eq_none]
    intro builtin isBuiltin same
    have listed : ∀ builtin ∈ Builtin.all, builtin.signature.name ∈ Token.reserved := by decide
    exact free (beq_iff_eq.mp same ▸ listed builtin isBuiltin)
  rw [Kind.ofWord, noKeyword, noBuiltin, noValue]
  rfl

/-- The text of a token is scanned as the token's kind. One case for each kind: a free shape, the
    two truth values, or the single spelling that the kind has. -/
theorem front_spelled {token : Token} (spelled : token.Spelled) {rest : List UInt8}
    (apart : Apart rest) : FrontIs token.kind token.lexeme.toList rest := by
  obtain ⟨kind, lexeme, line⟩ := token
  unfold Token.Spelled at spelled
  dsimp only at spelled ⊢
  split at spelled
  · have front := front_word spelled.1 apart
    rwa [String.ofList_toList, ofWord_of_not_reserved spelled.2] at front
  · exact front_number spelled apart
  · exact front_string spelled rest
  · rcases spelled with rfl | rfl
    · exact front_word (wordShape_of_isWord (by decide)) apart
    · exact front_word (wordShape_of_isWord (by decide)) apart
  · exact front_spelling spelled apart

/-- What is known of the front of the bytes is what scanning does with them. -/
theorem FrontIs.scanLines {token : Token} {rest : List UInt8}
    (front : FrontIs token.kind token.lexeme.toList rest) (line : Nat) :
    Token.scanLines line (Utf8.encode token.lexeme ++ rest) = do
      let later ← Token.scanLines line rest
      return ⟨token.kind, token.lexeme, line⟩ :: later := by
  obtain ⟨byte, tail, bytes, -, front⟩ := front
  have text : Utf8.decode (byte :: tail) = token.lexeme := by
    rw [← bytes]
    exact Utf8.decode_encode token.lexeme
  have whole : Utf8.encode token.lexeme = byte :: tail := bytes
  rw [whole, List.cons_append, Token.scanLines]
  simp only [front, List.drop_left, List.take_left, text]

/-- A token that is spelled out is scanned first, and what follows it is scanned
    on the same line. -/
theorem scanLines_spelled {token : Token} (spelled : token.Spelled) {rest : List UInt8}
    (apart : Apart rest) (line : Nat) :
    Token.scanLines line (Utf8.encode token.lexeme ++ rest) = do
      let later ← Token.scanLines line rest
      return ⟨token.kind, token.lexeme, line⟩ :: later :=
  (front_spelled spelled apart).scanLines line

/-- A token that is spelled out does not start with a blank. -/
theorem dropWhile_spelled {token : Token} (spelled : token.Spelled) {rest : List UInt8}
    (apart : Apart rest) :
    (Utf8.encode token.lexeme ++ rest).takeWhile isSpace = [] ∧
      (Utf8.encode token.lexeme ++ rest).dropWhile isSpace = Utf8.encode token.lexeme ++ rest := by
  obtain ⟨byte, tail, bytes, noSpace, -⟩ := front_spelled spelled apart
  have whole : Utf8.encode token.lexeme = byte :: tail := bytes
  rw [whole, List.cons_append]
  simp [noSpace]

/-- A blank inside a line is skipped and adds no token, so the rest is scanned on the same line. -/
theorem scanLines_blank (line : Nat) (rest : List UInt8) :
    Token.scanLines line (0x20 :: rest) = Token.scanLines line rest := by
  have front : Piece.front 0x20 rest = (.gap, 0) := by
    simp [Piece.front, show isSpace 0x20 = true by decide]
  rw [Token.scanLines]
  simp only [front, List.drop_zero]

/-- A line break ends the line and starts the next one with its indentation. -/
theorem scanLines_break (line : Nat) (rest : List UInt8) :
    Token.scanLines line (0x0A :: rest) = do
      let later ← Token.scanLines (line + 1) (rest.dropWhile isSpace)
      return Token.newline line :: (Token.indentation (line + 1) rest ++ later) := by
  have front : Piece.front 0x0A rest = (.lineBreak, 0) := by
    simp [Piece.front, show isSpace 0x0A = false by decide, show byteChar 0x0A = '\n' by decide]
  rw [Token.scanLines]
  simp only [front, List.drop_zero]

/-- No line break, indentation or block end is spelled out, so none of them is confused with a token
    of the text. -/
theorem Token.Spelled.kind_ne {token : Token} (spelled : token.Spelled) :
    token.kind ≠ .newline ∧ token.kind ≠ .indent ∧ token.kind ≠ .closeBlock := by
  obtain ⟨kind, lexeme, line⟩ := token
  cases kind <;> simp_all [Token.Spelled, Kind.spelling?]

end Offside
