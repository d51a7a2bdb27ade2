import Offside.Text.Utf8

/-!
# Decoding undoes encoding

The UTF-8 bytes of a text decode to the text itself, without a replacement
character. A character of one byte stands for itself. For the longer forms the
lead byte tells the number of bytes, the first continuation byte lies in the
range that the lead byte admits, and the payload bits of all bytes give back the
code point. The ranges of the first continuation byte are exactly what excludes
overlong forms, surrogates and values past the last code point, and a character
has none of these.
-/

namespace Offside.Utf8

/-- The bytes of a text. -/
def encode (text : String) : List UInt8 :=
  text.toList.flatMap String.utf8EncodeChar

/-- A byte given by a number below 256 is that number. The forms of the encoding are given by such
    numbers, and their bytes are compared by them. -/
theorem toNat_byte {value : Nat} (small : value < 256) : (UInt8.ofNat value).toNat = value := by
  rw [UInt8.toNat_ofNat']
  exact Nat.mod_eq_of_lt small

/-- Bytes are in the order of the numbers that they are given by. -/
theorem byte_lt_iff {left right : Nat} (leftSmall : left < 256) (rightSmall : right < 256) :
    UInt8.ofNat left < UInt8.ofNat right ↔ left < right := by
  rw [UInt8.lt_iff_toNat_lt, toNat_byte leftSmall, toNat_byte rightSmall]

/-- The same for the order that admits equality, in which the ranges of continuation bytes are
    stated. -/
theorem byte_le_iff {left right : Nat} (leftSmall : left < 256) (rightSmall : right < 256) :
    UInt8.ofNat left ≤ UInt8.ofNat right ↔ left ≤ right := by
  rw [UInt8.le_iff_toNat_le, toNat_byte leftSmall, toNat_byte rightSmall]

/-- Bytes are the same if their numbers are, so questions about bytes are settled by arithmetic. -/
theorem byte_eq_iff {left right : Nat} (leftSmall : left < 256) (rightSmall : right < 256) :
    UInt8.ofNat left = UInt8.ofNat right ↔ left = right := by
  rw [← UInt8.toNat_inj, toNat_byte leftSmall, toNat_byte rightSmall]

/-- The demand of a lead byte by its value: how many continuation bytes it asks for, and in which
    range the first of them lies. Four values have a range of their own. -/
theorem lead?_byte {value : Nat} (small : value < 256) :
    lead? (UInt8.ofNat value) =
      if 0xC2 ≤ value ∧ value ≤ 0xDF then some ⟨1, 0x80, 0xBF⟩
      else if value = 0xE0 then some ⟨2, 0xA0, 0xBF⟩
      else if value = 0xED then some ⟨2, 0x80, 0x9F⟩
      else if 0xE1 ≤ value ∧ value ≤ 0xEF then some ⟨2, 0x80, 0xBF⟩
      else if value = 0xF0 then some ⟨3, 0x90, 0xBF⟩
      else if value = 0xF4 then some ⟨3, 0x80, 0x8F⟩
      else if 0xF1 ≤ value ∧ value ≤ 0xF3 then some ⟨3, 0x80, 0xBF⟩
      else none := by
  have le (bound : Nat) (boundSmall : bound < 256) :
      (UInt8.ofNat bound ≤ UInt8.ofNat value ↔ bound ≤ value) ∧
        (UInt8.ofNat value ≤ UInt8.ofNat bound ↔ value ≤ bound) ∧
        (UInt8.ofNat value = UInt8.ofNat bound ↔ value = bound) :=
    ⟨byte_le_iff boundSmall small, byte_le_iff small boundSmall, byte_eq_iff small boundSmall⟩
  simp only [lead?]
  have c2 := le 0xC2 (by decide)
  have df := le 0xDF (by decide)
  have e0 := le 0xE0 (by decide)
  have ed := le 0xED (by decide)
  have e1 := le 0xE1 (by decide)
  have ef := le 0xEF (by decide)
  have f0 := le 0xF0 (by decide)
  have f4 := le 0xF4 (by decide)
  have f1 := le 0xF1 (by decide)
  have f3 := le 0xF3 (by decide)
  simp only [UInt8.reduceOfNat] at c2 df e0 ed e1 ef f0 f4 f1 f3
  simp only [c2, df, e0, ed, e1, ef, f0, f4, f1, f3]

/-- A byte in the range from `low` to `high`, all given by their values. -/
theorem byte_inside (low value high : Nat) (lower : low ≤ value) (upper : value ≤ high)
    (small : high < 256) :
    UInt8.ofNat low ≤ UInt8.ofNat value ∧ UInt8.ofNat value ≤ UInt8.ofNat high :=
  ⟨(byte_le_iff (by omega) (by omega)).mpr lower, (byte_le_iff (by omega) small).mpr upper⟩

/-- A continuation byte by its payload of six bits. All 64 payloads give one. -/
theorem isTail_byte {payload : Nat} (small : payload < 64) :
    isTail (UInt8.ofNat (payload + 0x80)) = true := by
  have inside := byte_inside 0x80 (payload + 0x80) 0xBF (by omega) (by omega) (by decide)
  simp only [UInt8.reduceOfNat] at inside
  rw [isTail, decide_eq_true inside.1, decide_eq_true inside.2]
  rfl

/-- The first byte of a character of several bytes is no character of its own. -/
theorem not_ascii_byte {value : Nat} (large : 0x80 ≤ value) (small : value < 256) :
    ¬ UInt8.ofNat value < (0x80 : UInt8) := by
  have below := @byte_lt_iff value 0x80 small (by decide)
  simp only [UInt8.reduceOfNat] at below
  rw [below]
  omega

/-- A continuation byte in the range of the lead byte is taken, and after it as
    many continuation bytes as are still asked for. -/
theorem accepted_cons {lead : Lead} {byte : UInt8} {tails : List UInt8}
    (asked : lead.tails = tails.length + 1) (inside : lead.low ≤ byte ∧ byte ≤ lead.high)
    (areTails : ∀ tail ∈ tails, isTail tail = true) (rest : List UInt8) :
    lead.accepted (byte :: (tails ++ rest)) = byte :: tails := by
  have whole : tails.takeWhile isTail = tails := by
    rw [← List.append_nil tails, List.takeWhile_append_of_pos areTails]
    simp
  rw [Lead.accepted, if_pos inside, asked, Nat.add_sub_cancel, List.take_left, whole]

/-- A character of several bytes is read whole when the lead byte asks for its
    continuation bytes and admits the first of them. -/
theorem front_multibyte {byte : Nat} (large : 0x80 ≤ byte) (small : byte < 256) {lead : Lead}
    (asks : lead? (UInt8.ofNat byte) = some lead) {first : UInt8} (tails : List UInt8)
    (asked : lead.tails = tails.length + 1) (inside : lead.low ≤ first ∧ first ≤ lead.high)
    (areTails : ∀ tail ∈ tails, isTail tail = true) (rest : List UInt8) :
    front (UInt8.ofNat byte) (first :: (tails ++ rest)) =
      (Char.ofNat (codePoint (UInt8.ofNat byte) (first :: tails)), tails.length + 1) := by
  rw [front, if_neg (not_ascii_byte large small), asks]
  dsimp only
  rw [accepted_cons asked inside areTails rest, List.length_cons, if_pos asked.symm]

/-- A character of one byte is read as it stands, and no further byte belongs to it. -/
theorem front_one {value : Nat} (low : value ≤ 0x7F) (rest : List UInt8) :
    front (UInt8.ofNat value) rest = (Char.ofNat value, 0) := by
  have below : UInt8.ofNat value < (0x80 : UInt8) :=
    (@byte_lt_iff value 0x80 (by omega) (by decide)).mpr (by omega)
  rw [front, if_pos below, toNat_byte (by omega)]

/-- A character of two bytes is read whole: five bits from the lead byte, six from the byte after
    it. The lead bytes that would give an overlong form do not occur for it. -/
theorem front_two {value : Nat} (low : 0x80 ≤ value) (high : value ≤ 0x7FF) (rest : List UInt8) :
    front (UInt8.ofNat (value / 64 % 0x20 + 0xC0)) (UInt8.ofNat (value % 0x40 + 0x80) :: rest) =
      (Char.ofNat value, 1) := by
  have asks := @lead?_byte (value / 64 % 0x20 + 0xC0) (by omega)
  rw [if_pos (by omega)] at asks
  have inside := byte_inside 0x80 (value % 0x40 + 0x80) 0xBF (by omega) (by omega) (by decide)
  have read := front_multibyte (by omega) (by omega) asks [] rfl inside (by simp) rest
  rw [List.nil_append] at read
  rw [read]
  simp only [codePoint, List.length_cons, List.length_nil, List.foldl_cons, List.foldl_nil,
    toNat_byte (show value / 64 % 0x20 + 0xC0 < 256 by omega),
    toNat_byte (show value % 0x40 + 0x80 < 256 by omega), Nat.reduceAdd, Nat.reduceShiftRight]
  congr 2
  omega

/-- The first continuation byte of a character of three bytes. The surrogates
    lie where `0xED` would be followed by `0xA0` or more. -/
theorem lead?_three {value : Nat} (low : 0x800 ≤ value) (high : value ≤ 0xFFFF)
    (noSurrogate : value < 0xD800 ∨ 0xDFFF < value) :
    ∃ lead, lead? (UInt8.ofNat (value / 4096 % 0x10 + 0xE0)) = some lead ∧ lead.tails = 2 ∧
      lead.low ≤ UInt8.ofNat (value / 64 % 0x40 + 0x80) ∧
      UInt8.ofNat (value / 64 % 0x40 + 0x80) ≤ lead.high := by
  have asks := @lead?_byte (value / 4096 % 0x10 + 0xE0) (by omega)
  rw [if_neg (by omega)] at asks
  by_cases least : value / 4096 % 0x10 + 0xE0 = 0xE0
  · rw [if_pos least] at asks
    exact ⟨_, asks, rfl, byte_inside 0xA0 _ 0xBF (by omega) (by omega) (by decide)⟩
  · rw [if_neg least] at asks
    by_cases surrogates : value / 4096 % 0x10 + 0xE0 = 0xED
    · rw [if_pos surrogates] at asks
      exact ⟨_, asks, rfl, byte_inside 0x80 _ 0x9F (by omega) (by omega) (by decide)⟩
    · rw [if_neg surrogates, if_pos (by omega)] at asks
      exact ⟨_, asks, rfl, byte_inside 0x80 _ 0xBF (by omega) (by omega) (by decide)⟩

/-- A character of three bytes is read whole. The surrogates are excluded, because a lead byte
    refuses the continuation bytes that they would have. -/
theorem front_three {value : Nat} (low : 0x800 ≤ value) (high : value ≤ 0xFFFF)
    (noSurrogate : value < 0xD800 ∨ 0xDFFF < value) (rest : List UInt8) :
    front (UInt8.ofNat (value / 4096 % 0x10 + 0xE0))
      (UInt8.ofNat (value / 64 % 0x40 + 0x80) :: UInt8.ofNat (value % 0x40 + 0x80) :: rest) =
      (Char.ofNat value, 2) := by
  obtain ⟨lead, asks, asked, inside⟩ := lead?_three low high noSurrogate
  have read := front_multibyte (by omega) (by omega) asks
    [UInt8.ofNat (value % 0x40 + 0x80)] asked inside
    (by simpa using isTail_byte (Nat.mod_lt value (by decide))) rest
  rw [List.cons_append, List.nil_append] at read
  rw [read]
  simp only [codePoint, List.length_cons, List.length_nil, List.foldl_cons, List.foldl_nil,
    toNat_byte (show value / 4096 % 0x10 + 0xE0 < 256 by omega),
    toNat_byte (show value / 64 % 0x40 + 0x80 < 256 by omega),
    toNat_byte (show value % 0x40 + 0x80 < 256 by omega), Nat.reduceAdd, Nat.reduceShiftRight]
  congr 2
  omega

/-- The first continuation byte of a character of four bytes. The last code point bounds it where
    the lead byte is the greatest. -/
theorem lead?_four {value : Nat} (low : 0x10000 ≤ value) (high : value ≤ 0x10FFFF) :
    ∃ lead, lead? (UInt8.ofNat (value / 262144 % 0x08 + 0xF0)) = some lead ∧ lead.tails = 3 ∧
      lead.low ≤ UInt8.ofNat (value / 4096 % 0x40 + 0x80) ∧
      UInt8.ofNat (value / 4096 % 0x40 + 0x80) ≤ lead.high := by
  have asks := @lead?_byte (value / 262144 % 0x08 + 0xF0) (by omega)
  rw [if_neg (by omega), if_neg (by omega), if_neg (by omega), if_neg (by omega)] at asks
  by_cases least : value / 262144 % 0x08 + 0xF0 = 0xF0
  · rw [if_pos least] at asks
    exact ⟨_, asks, rfl, byte_inside 0x90 _ 0xBF (by omega) (by omega) (by decide)⟩
  · rw [if_neg least] at asks
    by_cases greatest : value / 262144 % 0x08 + 0xF0 = 0xF4
    · rw [if_pos greatest] at asks
      exact ⟨_, asks, rfl, byte_inside 0x80 _ 0x8F (by omega) (by omega) (by decide)⟩
    · rw [if_neg greatest, if_pos (by omega)] at asks
      exact ⟨_, asks, rfl, byte_inside 0x80 _ 0xBF (by omega) (by omega) (by decide)⟩

/-- A character of four bytes is read whole, up to the last code point. -/
theorem front_four {value : Nat} (low : 0x10000 ≤ value) (high : value ≤ 0x10FFFF)
    (rest : List UInt8) :
    front (UInt8.ofNat (value / 262144 % 0x08 + 0xF0))
      (UInt8.ofNat (value / 4096 % 0x40 + 0x80) :: UInt8.ofNat (value / 64 % 0x40 + 0x80) ::
        UInt8.ofNat (value % 0x40 + 0x80) :: rest) =
      (Char.ofNat value, 3) := by
  obtain ⟨lead, asks, asked, inside⟩ := lead?_four low high
  have read := front_multibyte (by omega) (by omega) asks
    [UInt8.ofNat (value / 64 % 0x40 + 0x80), UInt8.ofNat (value % 0x40 + 0x80)] asked
    inside (by
      intro tail member
      simp only [List.mem_cons, List.not_mem_nil, or_false] at member
      rcases member with rfl | rfl
      · exact isTail_byte (Nat.mod_lt _ (by decide))
      · exact isTail_byte (Nat.mod_lt _ (by decide))) rest
  rw [List.cons_append, List.cons_append, List.nil_append] at read
  rw [read]
  simp only [codePoint, List.length_cons, List.length_nil, List.foldl_cons, List.foldl_nil,
    toNat_byte (show value / 262144 % 0x08 + 0xF0 < 256 by omega),
    toNat_byte (show value / 4096 % 0x40 + 0x80 < 256 by omega),
    toNat_byte (show value / 64 % 0x40 + 0x80 < 256 by omega),
    toNat_byte (show value % 0x40 + 0x80 < 256 by omega), Nat.reduceAdd, Nat.reduceShiftRight]
  congr 2
  omega

/-- The bytes of a character, at the front of any further bytes, are read as that
    character. -/
theorem front_encodeChar (char : Char) (rest : List UInt8) :
    ∃ byte tails, String.utf8EncodeChar char = byte :: tails ∧
      front byte (tails ++ rest) = (char, tails.length) := by
  have code : Char.ofNat char.val.toNat = char := Char.ofNat_toNat char
  have valid := char.valid
  simp only [UInt32.isValidChar, Nat.isValidChar] at valid
  unfold String.utf8EncodeChar
  generalize char.val.toNat = value at *
  dsimp only
  split
  · rename_i one
    exact ⟨_, _, rfl, by rw [← code]; exact front_one one _⟩
  · split
    · rename_i two
      exact ⟨_, _, rfl, by rw [← code]; exact front_two (by omega) two rest⟩
    · split
      · rename_i three
        exact ⟨_, _, rfl, by rw [← code]; exact front_three (by omega) three (by omega) rest⟩
      · exact ⟨_, _, rfl, by rw [← code]; exact front_four (by omega) (by omega) rest⟩

/-- Decoding takes the character at the front and goes on after its bytes. -/
theorem decodeChars_cons (byte : UInt8) (rest : List UInt8) :
    decodeChars (byte :: rest) =
      (front byte rest).1 :: decodeChars (rest.drop (front byte rest).2) := by
  rw [decodeChars]

/-- Decoding the bytes of characters gives the characters back, by induction on the characters: each
    is read at the front of the bytes of those after it. -/
theorem decodeChars_encode (chars : List Char) :
    decodeChars (chars.flatMap String.utf8EncodeChar) = chars := by
  induction chars with
  | nil => simp [decodeChars]
  | cons char chars ih =>
      obtain ⟨byte, tails, bytes, read⟩ :=
        front_encodeChar char (chars.flatMap String.utf8EncodeChar)
      rw [List.flatMap_cons, bytes, List.cons_append, decodeChars_cons, read]
      dsimp only
      rw [List.drop_left, ih]

/-- Every text is what its bytes decode to. So a lexeme is the text that was written in the source,
    if the source is UTF-8. -/
theorem decode_encode (text : String) : decode (encode text) = text := by
  rw [decode, encode, decodeChars_encode, String.ofList_toList]

end Offside.Utf8
