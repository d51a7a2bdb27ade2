import Mathlib
import Offside.Token.Scan

/-!
# Sources cut into segments

What scanning makes of a source, said without a scanner. A source is cut into
segments from left to right, and each segment is the longest that its class has at
its place: a run of bytes goes on until a byte stands there that cannot continue it,
and an operator of two bytes is preferred to its first byte. Indentation is only cut
off where a line starts.

There is at most one way to cut a source. Where a string literal is not closed, or a
number does not end in a digit, there is none, because no other segment starts with
the bytes of these.
-/

namespace Offside

/-- The operators of two bytes. -/
def Segment.pairs : List (Char × Char × Kind) :=
  [('=', '=', .equal), ('!', '=', .notEqual), ('>', '=', .greaterEqual), ('<', '=', .lessEqual),
    ('-', '>', .arrow)]

/-- The operators and delimiters of one byte. -/
def Segment.symbols : List (Char × Kind) :=
  [('(', .leftParen), (')', .rightParen), ('[', .leftBracket), (']', .rightBracket),
    ('\x7b', .leftBrace), ('\x7d', .rightBrace), (',', .comma), (':', .colon), ('+', .plus),
    ('-', .minus), ('*', .star), ('/', .slash), ('%', .percent), ('=', .assign), ('>', .greater),
    ('<', .less)]

/-- The words that are no names: keywords, builtins, operators, literals. -/
def Segment.words : List (String × Kind) :=
  ([("import", .importWord), ("from", .fromWord), ("for", .forWord), ("in", .inWord),
    ("if", .ifWord), ("elif", .elifWord), ("else", .elseWord), ("class", .classWord),
    ("while", .whileWord), ("def", .defWord), ("return", .returnWord)] : List (String × Kind)) ++
  ([("print", .print), ("range", .range)] : List (String × Kind)) ++
  ([("not", .notWord), ("and", .andWord), ("or", .orWord)] : List (String × Kind)) ++
  ([("True", .boolLiteral), ("False", .boolLiteral), ("None", .nullLiteral)] :
    List (String × Kind))

/-- The kind of a word. -/
def Segment.kindOfWord (word : String) : Kind :=
  (Segment.words.lookup word).getD .identifier

/-- A digit, an underscore or a point. -/
def NumberByte (byte : UInt8) : Prop :=
  (byteChar byte).isDigit = true ∨ byteChar byte = '_' ∨ byteChar byte = '.'

/-- A letter, a digit or an underscore. -/
def WordByte (byte : UInt8) : Prop :=
  (byteChar byte).isAlphanum = true ∨ byteChar byte = '_'

/-- A line feed stands first, or a carriage return and a line feed. -/
def BreaksLine (bytes : List UInt8) : Prop :=
  ∃ rest, bytes = 0x0A :: rest ∨ bytes = 0x0D :: 0x0A :: rest

/-- What a source is cut into. -/
inductive Segment where
  /-- Four spaces where a line starts. -/
  | indent
  /-- Other spaces, or a comment. -/
  | blank (bytes : List UInt8)
  | lineBreak (bytes : List UInt8)
  /-- A token with its text. -/
  | lexeme (kind : Kind) (bytes : List UInt8)
  deriving DecidableEq, Repr

namespace Segment

/-- The bytes of a segment. -/
def bytes : Segment → List UInt8
  | indent => [0x20, 0x20, 0x20, 0x20]
  | blank bytes => bytes
  | lineBreak bytes => bytes
  | lexeme _ bytes => bytes

/-- Whether indentation may stand after a segment. -/
def startsLine : Segment → Bool
  | indent | lineBreak _ => true
  | blank _ | lexeme _ _ => false

/-- The spaces in front of `rest`. `start` says whether a line starts here, apart from
    indentation already cut off. -/
inductive Spaces : Bool → Segment → List UInt8 → Prop where
  | indent (rest : List UInt8) : Spaces true .indent rest
  /-- What is left over at a line start. -/
  | remainder (count : Nat) (rest : List UInt8) (positive : 0 < count) (short : count < 4)
      (whole : ∀ next ∈ rest.head?, next ≠ 0x20) :
      Spaces true (.blank (List.replicate count 0x20)) rest
  | further (rest : List UInt8) : Spaces false (.blank [0x20]) rest

/-- The segment is the longest of its class in front of `rest`. -/
inductive Longest : Segment → List UInt8 → Prop where
  /-- A hash sign and everything up to the line break. -/
  | comment (text rest : List UInt8)
      (inLine : ∀ tail, tail ≠ [] → tail <:+ text → ¬ BreaksLine (tail ++ rest))
      (whole : rest = [] ∨ BreaksLine rest) :
      Longest (.blank (0x23 :: text)) rest
  | lineFeed (rest : List UInt8) : Longest (.lineBreak [0x0A]) rest
  | carriageReturn (rest : List UInt8) : Longest (.lineBreak [0x0D, 0x0A]) rest
  | pair (first second : UInt8) (kind : Kind) (rest : List UInt8)
      (listed : (byteChar first, byteChar second, kind) ∈ pairs) :
      Longest (.lexeme kind [first, second]) rest
  | symbol (byte : UInt8) (kind : Kind) (rest : List UInt8)
      (listed : (byteChar byte, kind) ∈ symbols)
      (alone : ∀ next ∈ rest.head?, ∀ kind, (byteChar byte, byteChar next, kind) ∉ pairs) :
      Longest (.lexeme kind [byte]) rest
  | string (body rest : List UInt8)
      (inside : ∀ byte ∈ body, byte ≠ 0x22 ∧ byte ≠ 0x0A ∧ byte ≠ 0x0D) :
      Longest (.lexeme .stringLiteral (0x22 :: (body ++ [0x22]))) rest
  | number (first : UInt8) (run rest : List UInt8) (digit : (byteChar first).isDigit = true)
      (inside : ∀ byte ∈ run, NumberByte byte)
      (closed : (byteChar (run.getLastD first)).isDigit = true)
      (whole : ∀ next ∈ rest.head?, ¬ NumberByte next) :
      Longest (.lexeme .intLiteral (first :: run)) rest
  | word (first : UInt8) (run rest : List UInt8) (letter : (byteChar first).isAlpha = true)
      (inside : ∀ byte ∈ run, WordByte byte) (whole : ∀ next ∈ rest.head?, ¬ WordByte next) :
      Longest (.lexeme (kindOfWord (Utf8.decode (first :: run))) (first :: run)) rest
  /-- A byte that starts none of the others. -/
  | illegal (byte : UInt8) (rest : List UInt8) (noSpace : byte ≠ 0x20)
      (noBreak : ¬ BreaksLine (byte :: rest)) (noComment : byte ≠ 0x23) (noQuote : byte ≠ 0x22)
      (noDigit : (byteChar byte).isDigit = false) (noLetter : (byteChar byte).isAlpha = false)
      (noSymbol : ∀ kind, (byteChar byte, kind) ∉ symbols)
      (noPair : ∀ next ∈ rest.head?, ∀ kind, (byteChar byte, byteChar next, kind) ∉ pairs) :
      Longest (.lexeme .illegal [byte]) rest

/-- The bytes of several segments. -/
def bytesAll (segments : List Segment) : List UInt8 :=
  segments.flatMap bytes

/-- The bytes of segments are laid end to end, so those of the first one stand at the front of the
    source. -/
@[simp]
theorem bytesAll_cons (segment : Segment) (segments : List Segment) :
    bytesAll (segment :: segments) = segment.bytes ++ bytesAll segments :=
  List.flatMap_cons

/-- Every segment is the longest in front of those after it. -/
def Cut : Bool → List Segment → Prop
  | _, [] => True
  | start, segment :: segments =>
      (Spaces start segment (bytesAll segments) ∨ Longest segment (bytesAll segments)) ∧
        Cut segment.startsLine segments

/-- The tokens of segments that start on line `line`, each with its text and the line
    it stands on. -/
def tokens (line : Nat) : List Segment → List Token
  | [] => []
  | .indent :: segments => Token.indent line :: tokens line segments
  | .blank _ :: segments => tokens line segments
  | .lineBreak _ :: segments => Token.newline line :: tokens (line + 1) segments
  | .lexeme kind bytes :: segments => ⟨kind, Utf8.decode bytes, line⟩ :: tokens line segments

/-! ## Tables -/

/-- What scanning takes for an operator of two bytes is what the table lists, with the kind that the
    table gives it. Only the five rows of the table are left after the case split. -/
theorem ofPair?_eq_some_iff (first second : Char) (kind : Kind) :
    Kind.ofPair? first second = some kind ↔ (first, second, kind) ∈ pairs := by
  constructor
  · intro found
    unfold Kind.ofPair? at found
    split at found <;> simp_all [pairs]
  · intro listed
    simp only [pairs, List.mem_cons, Prod.mk.injEq, List.not_mem_nil, or_false] at listed
    rcases listed with ⟨rfl, rfl, rfl⟩ | ⟨rfl, rfl, rfl⟩ | ⟨rfl, rfl, rfl⟩ | ⟨rfl, rfl, rfl⟩ |
      ⟨rfl, rfl, rfl⟩ <;> rfl

/-- A character of the table of symbols is scanned as the kind that the table gives it. -/
theorem ofSymbol_eq {char : Char} {kind : Kind} (listed : (char, kind) ∈ symbols) :
    Kind.ofSymbol char = kind := by
  have every : ∀ entry ∈ symbols, Kind.ofSymbol entry.1 = entry.2 := by decide
  exact every (char, kind) listed

/-- A character is a symbol of the table, or it is illegal. -/
theorem ofSymbol_cases (char : Char) :
    (char, Kind.ofSymbol char) ∈ symbols ∨
      Kind.ofSymbol char = .illegal ∧ ∀ kind, (char, kind) ∉ symbols := by
  by_cases listed : ∃ kind, (char, kind) ∈ symbols
  · obtain ⟨kind, listed⟩ := listed
    left
    rwa [ofSymbol_eq listed]
  · right
    refine ⟨?_, fun kind member => listed ⟨kind, member⟩⟩
    unfold Kind.ofSymbol
    split <;> first
      | rfl
      | simp [symbols] at listed

/-- The builtins are found by their names. The table of words lists the two of them beside the
    keywords, while scanning asks for a builtin only after the keywords have failed. -/
theorem lookup_builtin (word : String) :
    [("print", Kind.print), ("range", .range)].lookup word =
      (Builtin.ofName? word).map Builtin.kind := by
  by_cases isPrint : word = "print"
  · subst isPrint
    rfl
  · by_cases isRange : word = "range"
    · subst isRange
      rfl
    · have noPrint : (word == "print") = false ∧ ("print" == word) = false := by
        simp [isPrint, Ne.symm isPrint]
      have noRange : (word == "range") = false ∧ ("range" == word) = false := by
        simp [isRange, Ne.symm isRange]
      simp [List.lookup, Builtin.ofName?, Builtin.all, Builtin.print, Builtin.range, noPrint,
        noRange]

/-- A word is classified as the table of words says: by its own row if it has one, and as a name
    otherwise. -/
theorem ofWord_eq (word : String) : Kind.ofWord word = kindOfWord word := by
  have keywords : words = Kind.keywords ++ ([("print", .print), ("range", .range)] ++
      Kind.valueWords) := rfl
  rw [kindOfWord, keywords, List.lookup_append, List.lookup_append, lookup_builtin, Kind.ofWord]
  cases Kind.keywords.lookup word with
  | some kind => rfl
  | none =>
      cases Builtin.ofName? word with
      | some builtin => rfl
      | none => rfl

/-! ## Classes of bytes -/

/-- The test of scanning admits the bytes of numbers and no others. -/
theorem isNumberByte_iff (byte : UInt8) : isNumberByte byte = true ↔ NumberByte byte := by
  simp [isNumberByte, NumberByte, or_assoc]

/-- The test of scanning admits the bytes of words and no others. -/
theorem isWordByte_iff (byte : UInt8) : isWordByte byte = true ↔ WordByte byte := by
  simp [isWordByte, WordByte]

/-- A byte as a character keeps its number. All 256 of them are characters, so nothing is replaced
    on the way. -/
theorem toNat_byteChar (byte : UInt8) : (byteChar byte).toNat = byte.toNat := by
  have small := byte.toNat_lt
  have isValid : byte.toNat.isValidChar := Or.inl (by omega)
  rw [byteChar, Char.ofNat, dif_pos isValid]
  rfl

/-- Different bytes are different characters, and a question about a byte may be asked of its
    character. -/
theorem byteChar_inj {byte other : UInt8} : byteChar byte = byteChar other ↔ byte = other := by
  refine ⟨fun same => ?_, congrArg byteChar⟩
  rw [← UInt8.toNat_inj, ← toNat_byteChar, ← toNat_byteChar, same]

/-- A byte is a certain character exactly if it is the byte of that character. The byte is given
    with the character, since it stands in the source as a number. -/
theorem byteChar_eq_iff {byte other : UInt8} {char : Char} (named : byteChar other = char) :
    byteChar byte = char ↔ byte = other := by
  rw [← named, byteChar_inj]

/-- The only space is the byte 32, and a tab is none. Neither is a line break, although both are
    blank to the eye. -/
theorem isSpace_iff (byte : UInt8) : isSpace byte = true ↔ byte = 0x20 := by
  rw [isSpace, beq_iff_eq, byteChar_eq_iff (show byteChar 0x20 = ' ' by decide)]

/-- A string literal may hold every byte but the quote and the two bytes of line breaks. -/
theorem isStringByte_iff (byte : UInt8) :
    isStringByte byte = true ↔ byte ≠ 0x22 ∧ byte ≠ 0x0A ∧ byte ≠ 0x0D := by
  simp only [isStringByte, Bool.and_eq_true, bne_iff_ne, ne_eq, and_assoc]
  rw [byteChar_eq_iff (show byteChar 0x22 = '"' by decide),
    byteChar_eq_iff (show byteChar 0x0A = '\n' by decide),
    byteChar_eq_iff (show byteChar 0x0D = '\r' by decide)]

/-- The test for a line break looks at two bytes at most, and finds a line feed alone or one after a
    carriage return. A carriage return alone is no line break. -/
theorem startsLineBreak_iff (bytes : List UInt8) :
    startsLineBreak bytes = true ↔ BreaksLine bytes := by
  cases bytes with
  | nil => simp [startsLineBreak, BreaksLine]
  | cons byte rest =>
      simp only [startsLineBreak, Bool.or_eq_true, Bool.and_eq_true, beq_iff_eq]
      rw [byteChar_eq_iff (show byteChar 0x0A = '\n' by decide),
        byteChar_eq_iff (show byteChar 0x0D = '\r' by decide)]
      cases rest with
      | nil => simp [BreaksLine]
      | cons next rest =>
          rw [List.head?_cons, Option.map_some, Option.some.injEq,
            byteChar_eq_iff (show byteChar 0x0A = '\n' by decide)]
          constructor
          · rintro (rfl | ⟨rfl, rfl⟩)
            · exact ⟨next :: rest, .inl rfl⟩
            · exact ⟨rest, .inr rfl⟩
          · rintro ⟨later, same | same⟩
            · exact .inl (List.cons.inj same).1
            · simp_all

/-! ## The piece at the front -/

/-- What scanning calls a segment. -/
def piece : Segment → Piece
  | indent | blank _ => .gap
  | lineBreak _ => .lineBreak
  | lexeme kind _ => .lexeme kind

/-- A space is a gap of its own, even where more of them follow. -/
theorem front_space (rest : List UInt8) : Piece.front 0x20 rest = (.gap, 0) := by
  simp [Piece.front, show isSpace 0x20 = true by decide]

/-- A line feed at the front is a line break by itself, whatever follows it. -/
theorem front_lineFeed (rest : List UInt8) : Piece.front 0x0A rest = (.lineBreak, 0) := by
  simp [Piece.front, show isSpace 0x0A = false by decide, show byteChar 0x0A = '\n' by decide]

/-- A carriage return and the line feed after it are a single line break. -/
theorem front_carriageReturn (rest : List UInt8) :
    Piece.front 0x0D (0x0A :: rest) = (.lineBreak, 1) := by
  have breaks : startsLineBreak (0x0D :: 0x0A :: rest) = true :=
    (startsLineBreak_iff _).mpr ⟨rest, .inr rfl⟩
  simp [Piece.front, show isSpace 0x0D = false by decide, show byteChar 0x0D = '\r' by decide,
    breaks]

/-- A hash sign starts a comment, which is a gap up to the end of the line. -/
theorem front_comment (rest : List UInt8) :
    Piece.front 0x23 rest = (.gap, commentLength rest) := by
  have hash : byteChar 0x23 = '#' := by decide
  simp [Piece.front, show isSpace 0x23 = false by decide, hash, startsLineBreak]

/-- A quote starts a string literal if the first byte that no string may hold is the closing quote.
    Otherwise the string is open, and nothing is scanned from there on. -/
theorem front_quote (rest : List UInt8) :
    Piece.front 0x22 rest =
      if rest[(rest.takeWhile isStringByte).length]? = some 0x22 then
        (.lexeme .stringLiteral, (rest.takeWhile isStringByte).length + 1)
      else (.openString, (rest.takeWhile isStringByte).length) := by
  have quote : byteChar 0x22 = '"' := by decide
  have closed (found : Option UInt8) : found.map byteChar = some '"' ↔ found = some 0x22 := by
    cases found with
    | none => simp
    | some byte => simp [byteChar_eq_iff quote]
  simp [Piece.front, show isSpace 0x22 = false by decide, quote, startsLineBreak, closed]

/-- The piece at the front, where no space, line break, comment or string starts: a number, a word,
    an operator of two bytes, or a symbol of one, in this order. -/
theorem front_plain {byte : UInt8} {rest : List UInt8} (noSpace : byte ≠ 0x20)
    (noBreak : ¬ BreaksLine (byte :: rest)) (noComment : byte ≠ 0x23) (noQuote : byte ≠ 0x22) :
    Piece.front byte rest =
      if (byteChar byte).isDigit then
        if (byteChar ((rest.takeWhile isNumberByte).getLastD byte)).isDigit then
          (.lexeme .intLiteral, (rest.takeWhile isNumberByte).length)
        else (.openNumber, (rest.takeWhile isNumberByte).length)
      else if (byteChar byte).isAlpha then
        (.lexeme (Kind.ofWord (Utf8.decode (byte :: rest.takeWhile isWordByte))),
          (rest.takeWhile isWordByte).length)
      else
        match rest.head?.bind (fun next => Kind.ofPair? (byteChar byte) (byteChar next)) with
        | some kind => (.lexeme kind, 1)
        | none => (.lexeme (Kind.ofSymbol (byteChar byte)), 0) := by
  have space : isSpace byte = false := by
    rwa [← Bool.not_eq_true, isSpace_iff]
  have lineBreak : startsLineBreak (byte :: rest) = false := by
    rwa [← Bool.not_eq_true, startsLineBreak_iff]
  have lineFeed : byteChar byte ≠ '\n' := by
    rw [ne_eq, byteChar_eq_iff (show byteChar 0x0A = '\n' by decide)]
    rintro rfl
    exact noBreak ⟨rest, .inl rfl⟩
  have hash : byteChar byte ≠ '#' := by
    rwa [ne_eq, byteChar_eq_iff (show byteChar 0x23 = '#' by decide)]
  have quote : byteChar byte ≠ '"' := by
    rwa [ne_eq, byteChar_eq_iff (show byteChar 0x22 = '"' by decide)]
  -- the branches before the last three are passed in the order of the definition
  calc Piece.front byte rest
    _ = _ := if_neg (by simp [space])
    _ = _ := if_neg lineFeed
    _ = _ := if_neg (by simp [lineBreak])
    _ = _ := if_neg hash
    _ = _ := if_neg quote

/-- The piece at the front, where no letter or digit starts either. An operator of two bytes is
    preferred to the symbol that its first byte is. -/
theorem front_mark {byte : UInt8} {rest : List UInt8} (noSpace : byte ≠ 0x20)
    (noBreak : ¬ BreaksLine (byte :: rest)) (noComment : byte ≠ 0x23) (noQuote : byte ≠ 0x22)
    (noDigit : (byteChar byte).isDigit = false) (noLetter : (byteChar byte).isAlpha = false) :
    Piece.front byte rest =
      match rest.head?.bind (fun next => Kind.ofPair? (byteChar byte) (byteChar next)) with
      | some kind => (.lexeme kind, 1)
      | none => (.lexeme (Kind.ofSymbol (byteChar byte)), 0) := by
  rw [front_plain noSpace noBreak noComment noQuote]
  simp only [noDigit, noLetter, Bool.false_eq_true, if_false]

/-- The bytes that start spaces, line breaks, comments and strings. -/
def Special (byte : UInt8) : Prop :=
  byte ∈ [0x20, 0x0A, 0x0D, 0x23, 0x22]

/-- A byte that is not special starts no space, line break, comment or string. The five special
    bytes are the first ones of these, and each of them has a rule of its own. -/
theorem plain_of_not_special {byte : UInt8} (plain : ¬ Special byte) (rest : List UInt8) :
    byte ≠ 0x20 ∧ ¬ BreaksLine (byte :: rest) ∧ byte ≠ 0x23 ∧ byte ≠ 0x22 := by
  simp only [Special, List.mem_cons, List.not_mem_nil, or_false, not_or] at plain
  refine ⟨plain.1, ?_, plain.2.2.2.1, plain.2.2.2.2⟩
  rintro ⟨later, same | same⟩
  · exact plain.2.1 (List.cons.inj same).1
  · exact plain.2.2.1 (List.cons.inj same).1

/-- A byte is not special if its character is not one of the five. Tables of characters are brought
    to bytes this way. -/
theorem not_special {byte : UInt8} (plain : byteChar byte ∉ [' ', '\n', '\r', '#', '"']) :
    ¬ Special byte := by
  intro special
  apply plain
  simp only [Special, List.mem_cons, List.not_mem_nil, or_false] at special
  rcases special with rfl | rfl | rfl | rfl | rfl <;> decide

/-- No letter and no digit is special, so words and numbers are told from gaps and strings by their
    first byte. -/
theorem not_special_of_alphanum {byte : UInt8} (alphanumeric : (byteChar byte).isAlphanum = true) :
    ¬ Special byte := by
  apply not_special
  intro special
  simp only [List.mem_cons, List.not_mem_nil, or_false] at special
  rcases special with same | same | same | same | same <;> rw [same] at alphanumeric <;>
    revert alphanumeric <;> decide

/-- The first byte of an operator is not special, and it is no letter or digit. -/
theorem pair_first {byte : UInt8} {second : Char} {kind : Kind}
    (listed : (byteChar byte, second, kind) ∈ pairs) :
    ¬ Special byte ∧ (byteChar byte).isDigit = false ∧ (byteChar byte).isAlpha = false := by
  have every : ∀ entry ∈ pairs, entry.1 ∉ [' ', '\n', '\r', '#', '"'] ∧
      entry.1.isDigit = false ∧ entry.1.isAlpha = false := by decide
  obtain ⟨plain, noWord⟩ := every _ listed
  exact ⟨not_special plain, noWord⟩

/-- The first byte of a symbol is not special, and it is no letter or digit, so it is reached by the
    last rule for the front alone. -/
theorem symbol_first {byte : UInt8} {kind : Kind} (listed : (byteChar byte, kind) ∈ symbols) :
    ¬ Special byte ∧ (byteChar byte).isDigit = false ∧ (byteChar byte).isAlpha = false := by
  have every : ∀ entry ∈ symbols, entry.1 ∉ [' ', '\n', '\r', '#', '"'] ∧
      entry.1.isDigit = false ∧ entry.1.isAlpha = false := by decide
  obtain ⟨plain, noWord⟩ := every _ listed
  exact ⟨not_special plain, noWord⟩

/-- No letter is a digit. The rule for numbers is asked before the rule for words, and this is why
    words pass it. -/
theorem not_digit_of_alpha {char : Char} (letter : char.isAlpha = true) :
    ¬ char.isDigit = true := by
  simp only [Char.isAlpha, Char.isUpper, Char.isLower, Bool.or_eq_true, Bool.and_eq_true,
    decide_eq_true_eq, ge_iff_le, UInt32.le_iff_toNat_le] at letter
  have firstUpper : 'A'.val.toNat = 65 := rfl
  have firstLower : 'a'.val.toNat = 97 := rfl
  have lastDigit : '9'.val.toNat = 57 := rfl
  simp only [Char.isDigit, Bool.and_eq_true, decide_eq_true_eq, ge_iff_le,
    UInt32.le_iff_toNat_le]
  omega

/-- Where no operator of two bytes stands, none is found, not even at the end of the source, where
    there is no second byte to look at. -/
theorem ofPair?_head {char : Char} {rest : List UInt8}
    (alone : ∀ next ∈ rest.head?, ∀ kind, (char, byteChar next, kind) ∉ pairs) :
    (rest.head?.bind fun next => Kind.ofPair? char (byteChar next)) = none := by
  rw [Option.bind_eq_none_iff]
  intro next isNext
  rw [Option.eq_none_iff_forall_ne_some]
  intro kind found
  exact alone next isNext kind ((ofPair?_eq_some_iff _ _ _).mp found)

/-- A run of one class ends where something of another class stands, or at the end. So the longest
    run is the one whose bytes are all of the class and whose successor is not. -/
theorem takeWhile_run {α : Type} {admitted : α → Bool} {run rest : List α}
    (inside : ∀ item ∈ run, admitted item = true)
    (whole : ∀ next ∈ rest.head?, admitted next = false) :
    (run ++ rest).takeWhile admitted = run ∧ (run ++ rest).dropWhile admitted = rest := by
  rw [List.takeWhile_append_of_pos inside, List.dropWhile_append_of_pos inside]
  cases rest with
  | nil => simp
  | cons next rest => simp [whole next rfl]

/-- A text is all of a comment if no line break starts inside it and one starts after it, or nothing
    follows. The induction is on the text, byte by byte. -/
theorem commentLength_append {text rest : List UInt8}
    (inLine : ∀ tail, tail ≠ [] → tail <:+ text → ¬ BreaksLine (tail ++ rest))
    (whole : rest = [] ∨ BreaksLine rest) : commentLength (text ++ rest) = text.length := by
  induction text with
  | nil =>
      rcases whole with rfl | breaks
      · rfl
      · obtain ⟨later, same⟩ := id breaks
        have starts := (startsLineBreak_iff rest).mpr breaks
        rcases same with rfl | rfl <;> simpa [commentLength] using starts
  | cons byte text ih =>
      have goesOn : startsLineBreak (byte :: (text ++ rest)) = false := by
        rw [← Bool.not_eq_true, startsLineBreak_iff]
        exact inLine (byte :: text) (by simp) List.suffix_rfl
      rw [List.cons_append, commentLength, goesOn]
      simpa using ih fun tail nonempty isTail =>
        inLine tail nonempty (isTail.trans (List.suffix_cons byte text))

/-- The piece at the front is the longest segment there. One case for each class of segments, since
    scanning has one rule for each. -/
theorem front_of_longest {segment : Segment} {byte : UInt8} {tail rest : List UInt8}
    (longest : Longest segment rest) (starts : segment.bytes = byte :: tail) :
    Piece.front byte (tail ++ rest) = (segment.piece, tail.length) := by
  cases longest with
  | comment text rest inLine whole =>
      cases starts
      rw [front_comment, commentLength_append inLine whole]
      rfl
  | lineFeed rest =>
      cases starts
      exact front_lineFeed rest
  | carriageReturn rest =>
      cases starts
      exact front_carriageReturn rest
  | pair first second kind rest listed =>
      cases starts
      obtain ⟨plain, noDigit, noLetter⟩ := pair_first listed
      obtain ⟨noSpace, noBreak, noComment, noQuote⟩ := plain_of_not_special plain (second :: rest)
      rw [List.cons_append, List.nil_append, front_mark noSpace noBreak noComment noQuote noDigit
        noLetter]
      simp [(ofPair?_eq_some_iff _ _ _).mpr listed, piece]
  | symbol byte kind rest listed alone =>
      cases starts
      obtain ⟨plain, noDigit, noLetter⟩ := symbol_first listed
      obtain ⟨noSpace, noBreak, noComment, noQuote⟩ := plain_of_not_special plain rest
      rw [List.nil_append, front_mark noSpace noBreak noComment noQuote noDigit noLetter,
        ofPair?_head alone]
      simp [ofSymbol_eq listed, piece]
  | string body rest inside =>
      cases starts
      have run : (body ++ 0x22 :: rest).takeWhile isStringByte = body :=
        (takeWhile_run (fun byte member => (isStringByte_iff byte).mpr (inside byte member))
          (by simp [show isStringByte 0x22 = false by decide])).1
      rw [List.append_assoc, List.singleton_append, front_quote, run]
      simp [piece]
  | number first run rest digit inside closed whole =>
      cases starts
      have alphanumeric : (byteChar byte).isAlphanum = true := by simp [Char.isAlphanum, digit]
      obtain ⟨noSpace, noBreak, noComment, noQuote⟩ :=
        plain_of_not_special (not_special_of_alphanum alphanumeric) (tail ++ rest)
      have taken : (tail ++ rest).takeWhile isNumberByte = tail := by
        refine (takeWhile_run
          (fun byte member => (isNumberByte_iff byte).mpr (inside byte member)) ?_).1
        intro next isNext
        rw [← Bool.not_eq_true, isNumberByte_iff]
        exact whole next isNext
      rw [front_plain noSpace noBreak noComment noQuote, taken, if_pos digit, if_pos closed]
      rfl
  | word first run rest letter inside whole =>
      cases starts
      have alphanumeric : (byteChar byte).isAlphanum = true := by simp [Char.isAlphanum, letter]
      obtain ⟨noSpace, noBreak, noComment, noQuote⟩ :=
        plain_of_not_special (not_special_of_alphanum alphanumeric) (tail ++ rest)
      have taken : (tail ++ rest).takeWhile isWordByte = tail := by
        refine (takeWhile_run
          (fun byte member => (isWordByte_iff byte).mpr (inside byte member)) ?_).1
        intro next isNext
        rw [← Bool.not_eq_true, isWordByte_iff]
        exact whole next isNext
      rw [front_plain noSpace noBreak noComment noQuote, taken, if_neg (not_digit_of_alpha letter),
        if_pos letter, ofWord_eq]
      rfl
  | illegal byte rest noSpace noBreak noComment noQuote noDigit noLetter noSymbol noPair =>
      cases starts
      rw [List.nil_append, front_mark noSpace noBreak noComment noQuote noDigit noLetter,
        ofPair?_head noPair]
      have isIllegal : Kind.ofSymbol (byteChar byte) = .illegal := by
        rcases ofSymbol_cases (byteChar byte) with listed | ⟨isIllegal, -⟩
        · exact absurd listed (noSymbol _)
        · exact isIllegal
      simp [isIllegal, piece]

/-- The text of a comment goes on up to a line break. -/
theorem comment_cut (rest : List UInt8) :
    (∀ tail, tail ≠ [] → tail <:+ rest.take (commentLength rest) →
      ¬ BreaksLine (tail ++ rest.drop (commentLength rest))) ∧
    (rest.drop (commentLength rest) = [] ∨ BreaksLine (rest.drop (commentLength rest))) := by
  induction rest with
  | nil =>
      refine ⟨fun tail nonempty isTail => ?_, .inl rfl⟩
      exact absurd (List.suffix_nil.mp isTail) nonempty
  | cons byte rest ih =>
      rw [commentLength]
      by_cases breaks : startsLineBreak (byte :: rest) = true
      · rw [if_pos breaks]
        refine ⟨fun tail nonempty isTail => ?_, .inr ((startsLineBreak_iff _).mp breaks)⟩
        exact absurd (List.suffix_nil.mp isTail) nonempty
      · rw [if_neg breaks, List.take_succ_cons, List.drop_succ_cons]
        refine ⟨fun tail nonempty isTail => ?_, ih.2⟩
        rcases List.suffix_cons_iff.mp isTail with rfl | isTail
        · rwa [List.cons_append, List.take_append_drop, ← startsLineBreak_iff]
        · exact ih.1 tail nonempty isTail

/-- A run of bytes of one class, cut off at its length. -/
theorem run_cut (admitted : UInt8 → Bool) (bytes : List UInt8) :
    bytes.take (bytes.takeWhile admitted).length = bytes.takeWhile admitted ∧
      bytes.drop (bytes.takeWhile admitted).length = bytes.dropWhile admitted ∧
      (∀ byte ∈ bytes.takeWhile admitted, admitted byte = true) ∧
      ∀ next ∈ (bytes.dropWhile admitted).head?, ¬ admitted next = true := by
  have whole := List.takeWhile_append_dropWhile (p := admitted) (l := bytes)
  refine ⟨?_, ?_, List.all_eq_true.mp List.all_takeWhile, ?_⟩
  · conv => enter [1, 2]; rw [← whole]
    exact List.take_left
  · conv => enter [1, 2]; rw [← whole]
    exact List.drop_left
  · intro next isNext
    have stops := List.head?_dropWhile_not admitted bytes
    rw [Option.mem_def.mp isNext] at stops
    simpa using stops

/-- The segment for a piece with these bytes. -/
def ofPiece? : Piece → List UInt8 → Option Segment
  | .gap, bytes => some (.blank bytes)
  | .lineBreak, bytes => some (.lineBreak bytes)
  | .lexeme kind, bytes => some (.lexeme kind bytes)
  | .openString, _ | .openNumber, _ => none

/-- A byte that stands alone is a symbol of the table, or it is illegal. -/
theorem longest_symbol {byte : UInt8} {rest : List UInt8} (noSpace : byte ≠ 0x20)
    (noBreak : ¬ BreaksLine (byte :: rest)) (noComment : byte ≠ 0x23) (noQuote : byte ≠ 0x22)
    (noDigit : ¬ (byteChar byte).isDigit = true) (noLetter : ¬ (byteChar byte).isAlpha = true)
    (alone : ∀ next ∈ rest.head?, ∀ kind, (byteChar byte, byteChar next, kind) ∉ pairs) :
    Longest (.lexeme (Kind.ofSymbol (byteChar byte)) [byte]) rest := by
  rcases ofSymbol_cases (byteChar byte) with listed | ⟨isIllegal, noSymbol⟩
  · exact .symbol byte _ rest listed alone
  · rw [isIllegal]
    exact .illegal byte rest noSpace noBreak noComment noQuote (by simpa using noDigit)
      (by simpa using noLetter) noSymbol alone

/-- The longest segment is found at the front. This is the other direction: whatever piece scanning
    cuts off, its bytes are the longest of its class there. -/
theorem longest_of_front {byte : UInt8} {rest : List UInt8} {segment : Segment}
    (found : ofPiece? (Piece.front byte rest).1 (byte :: rest.take (Piece.front byte rest).2) =
      some segment) :
    Spaces false segment (rest.drop (Piece.front byte rest).2) ∨
      Longest segment (rest.drop (Piece.front byte rest).2) := by
  by_cases isSpace : byte = 0x20
  · subst isSpace
    rw [front_space] at found ⊢
    cases found
    exact .inl (.further rest)
  right
  by_cases breaks : BreaksLine (byte :: rest)
  · obtain ⟨later, same | same⟩ := breaks
    · cases same
      rw [front_lineFeed] at found ⊢
      cases found
      exact .lineFeed rest
    · cases same
      rw [front_carriageReturn] at found ⊢
      cases found
      exact .carriageReturn later
  by_cases isComment : byte = 0x23
  · subst isComment
    rw [front_comment] at found ⊢
    cases found
    exact .comment _ _ (comment_cut rest).1 (comment_cut rest).2
  by_cases isQuote : byte = 0x22
  · subst isQuote
    rw [front_quote] at found ⊢
    split at found
    · rename_i closed
      obtain ⟨taken, -, inside, -⟩ := run_cut isStringByte rest
      rw [if_pos closed]
      cases found
      rw [List.take_add_one, closed, taken]
      exact .string _ _ fun other member => (isStringByte_iff other).mp (inside other member)
    · cases found
  rw [front_plain isSpace breaks isComment isQuote] at found ⊢
  by_cases digit : (byteChar byte).isDigit = true
  · obtain ⟨taken, dropped, inside, whole⟩ := run_cut isNumberByte rest
    rw [if_pos digit] at found ⊢
    split at found
    · rename_i closed
      rw [if_pos closed, dropped]
      cases found
      rw [taken]
      exact .number byte _ _ digit
        (fun other member => (isNumberByte_iff _).mp (inside other member)) closed
        (fun next isNext => mt (isNumberByte_iff _).mpr (whole next isNext))
    · cases found
  rw [if_neg digit] at found ⊢
  by_cases letter : (byteChar byte).isAlpha = true
  · obtain ⟨taken, dropped, inside, whole⟩ := run_cut isWordByte rest
    rw [if_pos letter] at found ⊢
    rw [dropped]
    cases found
    rw [taken, ofWord_eq]
    exact .word byte _ _ letter (fun other member => (isWordByte_iff _).mp (inside other member))
      (fun next isNext => mt (isWordByte_iff _).mpr (whole next isNext))
  rw [if_neg letter] at found ⊢
  cases rest with
  | nil =>
      cases found
      exact longest_symbol isSpace breaks isComment isQuote digit letter (by simp)
  | cons next rest =>
      rw [List.head?_cons, Option.bind_some] at found ⊢
      cases paired : Kind.ofPair? (byteChar byte) (byteChar next) with
      | some kind =>
          rw [paired] at found
          cases found
          exact .pair byte next kind rest ((ofPair?_eq_some_iff _ _ _).mp paired)
      | none =>
          rw [paired] at found
          cases found
          refine longest_symbol isSpace breaks isComment isQuote digit letter ?_
          rintro _ ⟨⟩ kind listed
          rw [(ofPair?_eq_some_iff _ _ _).mpr listed] at paired
          cases paired

/-- A segment that is not spaces starts with a byte that is no space, so spaces at a line start can
    be told apart from what follows them. -/
theorem longest_first {segment : Segment} {rest : List UInt8} (longest : Longest segment rest) :
    ∃ byte tail, segment.bytes = byte :: tail ∧ byte ≠ 0x20 := by
  have plain {byte : UInt8} (notSpecial : ¬ Special byte) : byte ≠ 0x20 :=
    (plain_of_not_special notSpecial []).1
  cases longest with
  | comment text rest inLine whole => exact ⟨0x23, text, rfl, by decide⟩
  | lineFeed rest => exact ⟨0x0A, [], rfl, by decide⟩
  | carriageReturn rest => exact ⟨0x0D, [0x0A], rfl, by decide⟩
  | pair first second kind rest listed => exact ⟨first, _, rfl, plain (pair_first listed).1⟩
  | symbol byte kind rest listed alone => exact ⟨byte, _, rfl, plain (symbol_first listed).1⟩
  | string body rest inside => exact ⟨0x22, _, rfl, by decide⟩
  | number first run rest digit inside closed whole =>
      exact ⟨first, run, rfl, plain (not_special_of_alphanum (by simp [Char.isAlphanum, digit]))⟩
  | word first run rest letter inside whole =>
      exact ⟨first, run, rfl, plain (not_special_of_alphanum (by simp [Char.isAlphanum, letter]))⟩
  | illegal byte rest noSpace => exact ⟨byte, [], rfl, noSpace⟩

/-! ## Line starts -/

/-- Spaces at the front, with no space after them, are what scanning counts for the indentation of
    the line. -/
theorem spaces_cut (count : Nat) {rest : List UInt8}
    (whole : ∀ next ∈ rest.head?, next ≠ 0x20) :
    (List.replicate count 0x20 ++ rest).takeWhile isSpace = List.replicate count 0x20 ∧
      (List.replicate count 0x20 ++ rest).dropWhile isSpace = rest := by
  have inside : ∀ byte ∈ List.replicate count (0x20 : UInt8), isSpace byte = true := by
    intro byte member
    rw [isSpace_iff, List.eq_of_mem_replicate member]
  have stops : ∀ next ∈ rest.head?, isSpace next = false := by
    intro next isNext
    rw [← Bool.not_eq_true, isSpace_iff]
    exact whole next isNext
  exact takeWhile_run inside stops

/-- Where a line starts, every group of four spaces is a token. -/
theorem indentation_spaces (line count : Nat) {rest : List UInt8}
    (whole : ∀ next ∈ rest.head?, next ≠ 0x20) :
    Token.indentation line (List.replicate count 0x20 ++ rest) =
      List.replicate (count / 4) (Token.indent line) := by
  rw [Token.indentation, (spaces_cut count whole).1, List.length_replicate, Token.indentWidth]

/-- The segments of a line start stand for the spaces there, and then come those of
    what follows the spaces. -/
theorem lineStart_sound {segments : List Segment} (cut : Cut true segments) :
    ∃ count later, bytesAll segments = List.replicate count 0x20 ++ bytesAll later ∧
      (∀ next ∈ (bytesAll later).head?, next ≠ 0x20) ∧ Cut false later ∧
      ∀ line, tokens line segments =
        List.replicate (count / 4) (Token.indent line) ++ tokens line later := by
  induction segments with
  | nil => exact ⟨0, [], rfl, by simp [bytesAll], trivial, fun line => rfl⟩
  | cons segment segments ih =>
      obtain ⟨spaces | longest, cut⟩ := cut
      · cases spaces with
        | indent =>
            obtain ⟨count, later, same, whole, laterCut, toTokens⟩ := ih cut
            refine ⟨count + 4, later, ?_, whole, laterCut, fun line => ?_⟩
            · rw [bytesAll_cons, same]
              rfl
            · rw [tokens, toTokens, Nat.add_div_right count (by decide)]
              rfl
        | remainder count rest positive short whole =>
            refine ⟨count, segments, bytesAll_cons _ _, whole, cut, fun line => ?_⟩
            rw [Nat.div_eq_of_lt short]
            rfl
      · obtain ⟨byte, tail, starts, noSpace⟩ := longest_first longest
        refine ⟨0, segment :: segments, rfl, ?_, ⟨.inr longest, cut⟩, fun line => rfl⟩
        rw [bytesAll_cons, starts]
        simpa using noSpace

/-- Spaces at a line start can be cut in front of any segments that do not start with
    another space. -/
theorem lineStart_complete (count : Nat) {later : List Segment}
    (whole : ∀ next ∈ (bytesAll later).head?, next ≠ 0x20) (cut : Cut false later) :
    ∃ segments, bytesAll segments = List.replicate count 0x20 ++ bytesAll later ∧
      Cut true segments ∧
      ∀ line, tokens line segments =
        List.replicate (count / 4) (Token.indent line) ++ tokens line later := by
  induction count using Nat.strongRecOn with
  | ind count ih =>
      rcases Nat.lt_or_ge count 4 with short | long
      · rcases Nat.eq_zero_or_pos count with rfl | positive
        · refine ⟨later, rfl, ?_, fun line => rfl⟩
          cases later with
          | nil => trivial
          | cons segment later =>
              obtain ⟨spaces | longest, laterCut⟩ := cut
              · cases spaces
                exact absurd rfl (whole 0x20 rfl)
              · exact ⟨.inr longest, laterCut⟩
        · refine ⟨.blank (List.replicate count 0x20) :: later, bytesAll_cons _ _,
            ⟨.inl (.remainder count _ positive short whole), cut⟩, fun line => ?_⟩
          rw [Nat.div_eq_of_lt short]
          rfl
      · obtain ⟨segments, same, startCut, toTokens⟩ := ih (count - 4) (by omega)
        obtain ⟨more, rfl⟩ : ∃ more, count = more + 4 := ⟨count - 4, by omega⟩
        rw [Nat.add_sub_cancel] at same toTokens
        refine ⟨.indent :: segments, ?_, ⟨.inl (.indent _), startCut⟩, fun line => ?_⟩
        · rw [bytesAll_cons, same]
          rfl
        · rw [tokens, toTokens, Nat.add_div_right more (by decide)]
          rfl

/-- Bytes cut off at a line start. They can be cut into segments with these tokens exactly if what
    follows the spaces can, and the groups of four spaces are the tokens in front. -/
theorem lineStart_iff (line : Nat) (bytes : List UInt8) (list : List Token) :
    (∃ segments, bytesAll segments = bytes ∧ Cut true segments ∧ tokens line segments = list) ↔
      ∃ later, bytesAll later = bytes.dropWhile isSpace ∧ Cut false later ∧
        Token.indentation line bytes ++ tokens line later = list := by
  constructor
  · rintro ⟨segments, rfl, cut, rfl⟩
    obtain ⟨count, later, same, whole, laterCut, toTokens⟩ := lineStart_sound cut
    refine ⟨later, ?_, laterCut, ?_⟩
    · rw [same, (spaces_cut count whole).2]
    · rw [same, indentation_spaces line count whole, toTokens]
  · rintro ⟨later, same, cut, rfl⟩
    have spaces : bytes.takeWhile isSpace =
        List.replicate (bytes.takeWhile isSpace).length 0x20 := by
      rw [List.eq_replicate_iff]
      exact ⟨rfl, fun byte member =>
        (isSpace_iff byte).mp ((run_cut isSpace bytes).2.2.1 byte member)⟩
    have whole : ∀ next ∈ (bytesAll later).head?, next ≠ 0x20 := by
      intro next isNext
      rw [same] at isNext
      exact mt (isSpace_iff next).mpr ((run_cut isSpace bytes).2.2.2 next isNext)
    have split : bytes =
        List.replicate (bytes.takeWhile isSpace).length 0x20 ++ bytesAll later := by
      rw [same, ← spaces, List.takeWhile_append_dropWhile]
    obtain ⟨segments, all, startCut, toTokens⟩ :=
      lineStart_complete (bytes.takeWhile isSpace).length whole cut
    refine ⟨segments, all.trans split.symm, startCut, ?_⟩
    rw [toTokens]
    rfl

/-! ## Scanning -/

/-- Scanning finds a segment at its first byte. It is never empty, so each step of a scan leaves
    fewer bytes. -/
theorem front_of_cut {segment : Segment} {rest : List UInt8}
    (cut : Spaces false segment rest ∨ Longest segment rest) :
    ∃ byte tail, segment.bytes = byte :: tail ∧
      Piece.front byte (tail ++ rest) = (segment.piece, tail.length) ∧
      ofPiece? segment.piece segment.bytes = some segment := by
  rcases cut with spaces | longest
  · cases spaces
    exact ⟨0x20, [], rfl, front_space rest, rfl⟩
  · obtain ⟨byte, tail, starts, -⟩ := longest_first longest
    refine ⟨byte, tail, starts, front_of_longest longest starts, ?_⟩
    cases longest <;> rfl

/-- Bytes are cut at the piece at their front, and then what is left is cut. -/
theorem cut_front_iff (line : Nat) (byte : UInt8) (rest : List UInt8) (list : List Token) :
    (∃ segments, bytesAll segments = byte :: rest ∧ Cut false segments ∧
        tokens line segments = list) ↔
      ∃ segment later, ofPiece? (Piece.front byte rest).1
          (byte :: rest.take (Piece.front byte rest).2) = some segment ∧
        bytesAll later = rest.drop (Piece.front byte rest).2 ∧ Cut segment.startsLine later ∧
        tokens line (segment :: later) = list := by
  constructor
  · rintro ⟨segments, same, cut, rfl⟩
    cases segments with
    | nil => cases same
    | cons segment later =>
        obtain ⟨here, laterCut⟩ := cut
        obtain ⟨first, tail, starts, front, found⟩ := front_of_cut here
        rw [bytesAll_cons, starts, List.cons_append] at same
        cases same
        refine ⟨segment, later, ?_, ?_, laterCut, rfl⟩
        · rw [front, List.take_left, ← starts]
          exact found
        · rw [front, List.drop_left]
  · rintro ⟨segment, later, found, same, cut, rfl⟩
    refine ⟨segment :: later, ?_, ⟨?_, cut⟩, rfl⟩
    · have all : segment.bytes = byte :: rest.take (Piece.front byte rest).2 := by
        cases piece : (Piece.front byte rest).1 <;> rw [piece] at found <;> cases found <;> rfl
      rw [bytesAll_cons, all, same, List.cons_append, List.take_append_drop]
    · rw [same]
      exact longest_of_front found

/-- A result with tokens put in front of it succeeds exactly if the result does. Scanning prepends
    to what the later bytes give, so it is taken apart by this once for each piece. -/
theorem map_ok_iff {first : Except Failure (List Token)} {next : List Token → List Token}
    {list : List Token} :
    (do return next (← first)) = Except.ok list ↔
      ∃ later, first = .ok later ∧ next later = list := by
  cases first with
  | error failure => simp [Bind.bind, Except.bind]
  | ok later => simp [Bind.bind, Except.bind, Pure.pure, Except.pure]

/-- Scanning succeeds exactly on bytes that can be cut into segments, with their tokens. The
    induction follows the recursion of scanning, one piece at a time. -/
theorem scanLines_iff (line : Nat) (bytes : List UInt8) (list : List Token) :
    Token.scanLines line bytes = .ok list ↔
      ∃ segments, bytesAll segments = bytes ∧ Cut false segments ∧
        tokens line segments = list := by
  fun_induction Token.scanLines line bytes generalizing list with
  | case1 line =>
      constructor
      · rintro ⟨⟩
        exact ⟨[], rfl, trivial, rfl⟩
      · rintro ⟨segments, same, cut, rfl⟩
        cases segments with
        | nil => rfl
        | cons segment later =>
            obtain ⟨byte, tail, starts, -⟩ := front_of_cut cut.1
            rw [bytesAll_cons, starts] at same
            cases same
  | case2 line byte rest unread isGap ih =>
      rw [cut_front_iff, isGap, ih]
      constructor
      · rintro ⟨later, same, cut, rfl⟩
        exact ⟨_, later, rfl, same, cut, rfl⟩
      · rintro ⟨_, later, ⟨⟩, same, cut, rfl⟩
        exact ⟨later, same, cut, rfl⟩
  | case3 line byte rest unread isBreak ih =>
      rw [cut_front_iff, isBreak, map_ok_iff]
      constructor
      · rintro ⟨list, scanned, rfl⟩
        obtain ⟨later, same, cut, rfl⟩ := (ih list).mp scanned
        obtain ⟨segments, all, startCut, toTokens⟩ :=
          (lineStart_iff (line + 1) unread _).mpr ⟨later, same, cut, rfl⟩
        refine ⟨_, segments, rfl, all, startCut, ?_⟩
        rw [tokens, toTokens]
      · rintro ⟨_, segments, ⟨⟩, all, startCut, rfl⟩
        obtain ⟨later, same, cut, toTokens⟩ :=
          (lineStart_iff (line + 1) unread _).mp ⟨segments, all, startCut, rfl⟩
        exact ⟨_, (ih _).mpr ⟨later, same, cut, rfl⟩, by rw [tokens, toTokens]⟩
  | case4 line byte rest unread text kind isLexeme ih =>
      rw [cut_front_iff, isLexeme, map_ok_iff]
      constructor
      · rintro ⟨list, scanned, rfl⟩
        obtain ⟨later, same, cut, rfl⟩ := (ih list).mp scanned
        exact ⟨_, later, rfl, same, cut, rfl⟩
      · rintro ⟨_, later, ⟨⟩, same, cut, rfl⟩
        exact ⟨_, (ih _).mpr ⟨later, same, cut, rfl⟩, rfl⟩
  | case5 line byte rest isOpen =>
      rw [cut_front_iff, isOpen]
      simp [ofPiece?]
  | case6 line byte rest text isOpen =>
      rw [cut_front_iff, isOpen]
      simp [ofPiece?]

/-- The same for a whole source, which starts with a line and is not empty. Lines are counted from
    1. -/
theorem scan_iff {source : List UInt8} (nonempty : source ≠ []) (list : List Token) :
    Token.scan source = .ok list ↔
      ∃ segments, bytesAll segments = source ∧ Cut true segments ∧ tokens 1 segments = list := by
  have notEmpty : source.isEmpty = false := by simpa using nonempty
  rw [lineStart_iff, Token.scan, notEmpty, if_neg Bool.false_ne_true, map_ok_iff]
  constructor
  · rintro ⟨list, scanned, rfl⟩
    obtain ⟨later, same, cut, rfl⟩ := (scanLines_iff _ _ _).mp scanned
    exact ⟨later, same, cut, rfl⟩
  · rintro ⟨later, same, cut, rfl⟩
    exact ⟨_, (scanLines_iff _ _ _).mpr ⟨later, same, cut, rfl⟩, rfl⟩

/-! ## Only one way to cut -/

/-- Two segments at the front of the same bytes are the same one, where no line starts. Both are
    what scanning finds there, and it finds only one. -/
theorem segment_unique {segment other : Segment} {rest otherRest : List UInt8}
    (cut : Spaces false segment rest ∨ Longest segment rest)
    (otherCut : Spaces false other otherRest ∨ Longest other otherRest)
    (same : segment.bytes ++ rest = other.bytes ++ otherRest) : segment = other := by
  obtain ⟨byte, tail, starts, front, found⟩ := front_of_cut cut
  obtain ⟨otherByte, otherTail, otherStarts, otherFront, otherFound⟩ := front_of_cut otherCut
  rw [starts, otherStarts, List.cons_append, List.cons_append] at same
  obtain ⟨rfl, sameTail⟩ := List.cons.inj same
  rw [sameTail, otherFront, Prod.mk.injEq] at front
  obtain rfl := (List.append_inj sameTail front.2.symm).1
  rw [starts] at found
  rw [otherStarts, front.1, found] at otherFound
  exact Option.some.inj otherFound

/-- Spaces at a line start are cut into groups of four first. -/
theorem indent_not_remainder {count : Nat} {rest otherRest : List UInt8} (short : count < 4)
    (whole : ∀ next ∈ otherRest.head?, next ≠ 0x20) :
    Segment.indent.bytes ++ rest ≠ List.replicate count 0x20 ++ otherRest := by
  intro same
  have spaces := congrArg (List.takeWhile isSpace) same
  have four : isSpace 0x20 = true := by decide
  rw [(spaces_cut count whole).1] at spaces
  have lengths := congrArg List.length spaces
  simp only [bytes, List.cons_append, List.takeWhile_cons, four, if_true, List.length_cons,
    List.length_replicate] at lengths
  omega

/-- Two segments at the front of the same bytes are the same one, where a line
    starts. -/
theorem segment_unique_start {segment other : Segment} {rest otherRest : List UInt8}
    (cut : Spaces true segment rest ∨ Longest segment rest)
    (otherCut : Spaces true other otherRest ∨ Longest other otherRest)
    (same : segment.bytes ++ rest = other.bytes ++ otherRest) : segment = other := by
  -- The first byte tells spaces from everything else.
  have space {segment : Segment} {rest : List UInt8} (spaces : Spaces true segment rest) :
      (segment.bytes ++ rest).head? = some 0x20 := by
    cases spaces with
    | indent => rfl
    | remainder count rest positive short whole =>
        obtain ⟨smaller, rfl⟩ : ∃ smaller, count = smaller + 1 := ⟨count - 1, by omega⟩
        rfl
  have noSpace {segment : Segment} {rest : List UInt8} (longest : Longest segment rest) :
      (segment.bytes ++ rest).head? ≠ some 0x20 := by
    obtain ⟨byte, tail, starts, differs⟩ := longest_first longest
    simpa [starts] using differs
  rcases cut with spaces | longest <;> rcases otherCut with otherSpaces | otherLongest
  · cases spaces with
    | indent =>
        cases otherSpaces with
        | indent => rfl
        | remainder count rest positive short whole =>
            exact absurd same (indent_not_remainder short whole)
    | remainder count rest positive short whole =>
        cases otherSpaces with
        | indent => exact absurd same.symm (indent_not_remainder short whole)
        | remainder other otherRest otherPositive otherShort otherWhole =>
            have spaces := congrArg (List.takeWhile isSpace) same
            simp only [bytes] at spaces
            rw [(spaces_cut count whole).1, (spaces_cut other otherWhole).1] at spaces
            rw [spaces]
  · exact absurd (same ▸ space spaces) (noSpace otherLongest)
  · exact absurd (same ▸ space otherSpaces) (noSpace longest)
  · exact segment_unique (.inr longest) (.inr otherLongest) same

/-- A source is cut in one way at most. The first segments agree because each is the longest at its
    place, and what is left is cut in one way by induction. -/
theorem cut_unique {start : Bool} {segments others : List Segment} (cut : Cut start segments)
    (otherCut : Cut start others) (same : bytesAll segments = bytesAll others) :
    segments = others := by
  have nonempty {start : Bool} {segment : Segment} {rest : List UInt8}
      (cut : Spaces start segment rest ∨ Longest segment rest) : segment.bytes ≠ [] := by
    rcases cut with spaces | longest
    · cases spaces with
      | indent => simp [bytes]
      | remainder count rest positive short whole => simp [bytes]; omega
      | further => simp [bytes]
    · obtain ⟨byte, tail, starts, -⟩ := longest_first longest
      simp [starts]
  induction segments generalizing start others with
  | nil =>
      cases others with
      | nil => rfl
      | cons other others =>
          rw [bytesAll_cons] at same
          exact absurd (List.append_eq_nil_iff.mp same.symm).1 (nonempty otherCut.1)
  | cons segment segments ih =>
      cases others with
      | nil =>
          rw [bytesAll_cons] at same
          exact absurd (List.append_eq_nil_iff.mp same).1 (nonempty cut.1)
      | cons other others =>
          rw [bytesAll_cons, bytesAll_cons] at same
          obtain rfl : segment = other := by
            cases start with
            | false => exact segment_unique cut.1 otherCut.1 same
            | true => exact segment_unique_start cut.1 otherCut.1 same
          rw [ih cut.2 otherCut.2 (List.append_cancel_left same)]

end Segment

/-- Scanning is longest-match segmentation: a source that is not empty is scanned
    exactly when it can be cut into segments from its start on, and then the tokens are
    those of the segments. There is at most one way to cut it. -/
theorem scan_iff_cut (source : List UInt8) (nonempty : source ≠ []) :
    (∀ tokens, Token.scan source = .ok tokens ↔
      ∃ segments, Segment.bytesAll segments = source ∧ Segment.Cut true segments ∧
        Segment.tokens 1 segments = tokens) ∧
    ∀ segments others, Segment.bytesAll segments = source → Segment.bytesAll others = source →
      Segment.Cut true segments → Segment.Cut true others → segments = others := by
  refine ⟨Segment.scan_iff nonempty, ?_⟩
  intro segments others same otherSame cut otherCut
  exact Segment.cut_unique cut otherCut (same.trans otherSame.symm)

/-- Five spaces, an operator of two bytes, a comment up to a line break of two bytes, and
    a lone exclamation mark after it. -/
theorem scan_iff_cut_lines :
    let source : List UInt8 := List.replicate 5 0x20 ++
      [0x78, 0x3E, 0x3D, 0x31, 0x2E, 0x35, 0x23, 0x0D, 0x0D, 0x0A, 0x21, 0x22, 0x23, 0x22]
    let tokens : List Token :=
      [.indent 1, ⟨.identifier, "x", 1⟩, ⟨.greaterEqual, ">=", 1⟩, ⟨.intLiteral, "1.5", 1⟩,
        .newline 1, ⟨.illegal, "!", 2⟩, ⟨.stringLiteral, "\"#\"", 2⟩]
    source ≠ [] ∧ Token.scan source = .ok tokens ∧
      ∃ segments, Segment.bytesAll segments = source ∧ Segment.Cut true segments ∧
        Segment.tokens 1 segments = tokens := by
  intro source tokens
  have nonempty : source ≠ [] := by decide
  have scanned : Token.scan source = .ok tokens := by
    dsimp only [source, tokens]
    cbv
  exact ⟨nonempty, scanned, ((scan_iff_cut source nonempty).1 tokens).mp scanned⟩

end Offside
