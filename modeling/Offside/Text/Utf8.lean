/-!
# Lossy decoding of UTF-8

Sources are byte lists and need not be valid UTF-8. Decoding is total: every
maximal run of bytes that begins a character and cannot be continued is read as
one replacement character, and so is every byte that begins none.

A character is a lead byte followed by the continuation bytes it asks for. Only
the first continuation byte has a range of its own, which rules out overlong
forms, surrogates and values past the last code point. The number of accepted
continuation bytes therefore settles both how far to advance and whether the
character is complete.
-/

namespace Offside.Utf8

/-- What a lead byte asks for: the number of continuation bytes, and the range
    of the first of them. -/
structure Lead where
  tails : Nat
  low : UInt8
  high : UInt8
  deriving DecidableEq, Repr

/-- The demand of a lead byte of a character of two or more bytes. -/
def lead? (byte : UInt8) : Option Lead :=
  if 0xC2 ≤ byte ∧ byte ≤ 0xDF then some ⟨1, 0x80, 0xBF⟩
  else if byte = 0xE0 then some ⟨2, 0xA0, 0xBF⟩
  else if byte = 0xED then some ⟨2, 0x80, 0x9F⟩
  else if 0xE1 ≤ byte ∧ byte ≤ 0xEF then some ⟨2, 0x80, 0xBF⟩
  else if byte = 0xF0 then some ⟨3, 0x90, 0xBF⟩
  else if byte = 0xF4 then some ⟨3, 0x80, 0x8F⟩
  else if 0xF1 ≤ byte ∧ byte ≤ 0xF3 then some ⟨3, 0x80, 0xBF⟩
  else none

/-- A continuation byte: its two high bits are `10`. -/
def isTail (byte : UInt8) : Bool :=
  decide (0x80 ≤ byte) && decide (byte ≤ 0xBF)

/-- The continuation bytes at the front of `bytes` that the lead byte accepts,
    never more than it asks for. -/
def Lead.accepted (lead : Lead) : List UInt8 → List UInt8
  | [] => []
  | byte :: rest =>
      if lead.low ≤ byte ∧ byte ≤ lead.high then
        byte :: (rest.take (lead.tails - 1)).takeWhile isTail
      else []

/-- Stands for every run of bytes that is no character. -/
def replacement : Char := '\uFFFD'

/-- The code point spelled by a lead byte and all its continuation bytes. The
    lead contributes the bits below its length mark, one fewer than six for every
    continuation byte; each of those contributes six more. -/
def codePoint (byte : UInt8) (tails : List UInt8) : Nat :=
  tails.foldl (fun value tail => value * 64 + tail.toNat % 64)
    (byte.toNat % (64 >>> tails.length))

/-- The character read at `byte`, and how many bytes of `rest` it uses. -/
def front (byte : UInt8) (rest : List UInt8) : Char × Nat :=
  if byte < 0x80 then (Char.ofNat byte.toNat, 0)
  else
    match lead? byte with
    | none => (replacement, 0)
    | some lead =>
        let tails := lead.accepted rest
        if tails.length = lead.tails then (Char.ofNat (codePoint byte tails), tails.length)
        else (replacement, tails.length)

/-- Decode every byte. Each round uses its first byte, so the list shrinks. -/
def decodeChars : List UInt8 → List Char
  | [] => []
  | byte :: rest =>
      (front byte rest).1 :: decodeChars (rest.drop (front byte rest).2)
termination_by bytes => bytes.length
decreasing_by simp only [List.length_drop, List.length_cons]; omega

/-- The text of a byte list, with replacement characters where it is not
    UTF-8. -/
def decode (bytes : List UInt8) : String :=
  String.ofList (decodeChars bytes)

end Offside.Utf8
