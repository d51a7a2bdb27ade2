import Mathlib.Data.List.Basic
import Offside.Proofs.Text.Encoding

/-!
# What bytes decode to

Decoding never mixes a byte of the first 128 with its neighbours: such a byte is a
character of its own and no continuation of another. So decoding can be cut in front
of it, and a character of the first 128 in the decoded text stands for itself in the
bytes. This is what excludes overlong forms, whatever the bytes are.
-/

namespace Offside.Utf8

/-- A byte of the first 128 is a character of its own, whatever follows it, since no lead byte is
    among them. -/
theorem front_ascii {byte : UInt8} (ascii : byte < 0x80) (rest : List UInt8) :
    front byte rest = (Char.ofNat byte.toNat, 0) := by
  rw [front, if_pos ascii]

/-- Bytes of the first 128 decode one by one. Names, numbers and operators are such bytes, and their
    lexemes are read off the source. -/
theorem decodeChars_ascii {bytes : List UInt8} (ascii : ∀ byte ∈ bytes, byte < 0x80) :
    decodeChars bytes = bytes.map fun byte => Char.ofNat byte.toNat := by
  induction bytes with
  | nil => rw [decodeChars, List.map_nil]
  | cons byte bytes ih =>
      rw [decodeChars_cons, front_ascii (ascii byte (by simp)), List.drop_zero,
        ih fun other member => ascii other (List.mem_cons_of_mem byte member), List.map_cons]

/-- What lead bytes ask for. The range of the first continuation byte is past the first
    128, and it starts later where the lead byte has no payload of its own. -/
theorem lead?_range {byte : UInt8} {lead : Lead} (asks : lead? byte = some lead) :
    0x80 ≤ lead.low.toNat ∧ lead.high.toNat ≤ 0xBF ∧
      (lead.tails = 1 ∧ 0xC2 ≤ byte.toNat ∧ byte.toNat ≤ 0xDF ∨
        lead.tails = 2 ∧ 0xE0 ≤ byte.toNat ∧ byte.toNat ≤ 0xEF ∧
          (byte.toNat = 0xE0 → 0xA0 ≤ lead.low.toNat) ∨
        lead.tails = 3 ∧ 0xF0 ≤ byte.toNat ∧ byte.toNat ≤ 0xF4 ∧
          (byte.toNat = 0xF0 → 0x90 ≤ lead.low.toNat)) := by
  rw [← UInt8.ofNat_toNat (x := byte), lead?_byte byte.toNat_lt] at asks
  split at asks
  · cases asks
    exact ⟨by decide, by decide, .inl (by simpa)⟩
  split at asks
  · cases asks
    exact ⟨by decide, by decide, .inr (.inl (by simp; omega))⟩
  split at asks
  · cases asks
    exact ⟨by decide, by decide, .inr (.inl (by simp; omega))⟩
  split at asks
  · cases asks
    exact ⟨by decide, by decide, .inr (.inl (by simp; omega))⟩
  split at asks
  · cases asks
    exact ⟨by decide, by decide, .inr (.inr (by simp; omega))⟩
  split at asks
  · cases asks
    exact ⟨by decide, by decide, .inr (.inr (by simp; omega))⟩
  split at asks
  · cases asks
    exact ⟨by decide, by decide, .inr (.inr (by simp; omega))⟩
  · cases asks

/-- Continuation bytes end in front of a byte of the first 128, which is none of them. -/
theorem takeWhile_isTail {stop : UInt8} (ascii : stop < 0x80) (count : Nat)
    (bytes more : List UInt8) :
    ((bytes ++ stop :: more).take count).takeWhile isTail =
      (bytes.take count).takeWhile isTail := by
  have noTail : isTail stop = false := by
    rw [isTail, decide_eq_false (by rw [UInt8.not_le]; exact ascii), Bool.false_and]
  induction bytes generalizing count with
  | nil => cases count <;> simp [noTail]
  | cons byte bytes ih =>
      cases count with
      | zero => rfl
      | succ count =>
          rw [List.cons_append, List.take_succ_cons, List.take_succ_cons, List.takeWhile_cons,
            List.takeWhile_cons, ih]

/-- A byte of the first 128 ends what a lead byte takes, so what stands from there on has no
    influence. The first continuation byte is checked against a range that starts past the first
    128, and the others are continuation bytes. -/
theorem accepted_append {lead : Lead} (low : 0x80 ≤ lead.low.toNat) {stop : UInt8}
    (ascii : stop < 0x80) (bytes more : List UInt8) :
    lead.accepted (bytes ++ stop :: more) = lead.accepted bytes := by
  cases bytes with
  | nil =>
      have outside : ¬ (lead.low ≤ stop ∧ stop ≤ lead.high) := by
        rintro ⟨inside, -⟩
        rw [UInt8.le_iff_toNat_le] at inside
        have below : stop.toNat < 128 := UInt8.lt_iff_toNat_lt.mp ascii
        omega
      rw [List.nil_append, Lead.accepted, Lead.accepted, if_neg outside]
  | cons byte bytes =>
      rw [List.cons_append, Lead.accepted, takeWhile_isTail ascii, Lead.accepted]

/-- What is read at a byte does not go past a byte of the first 128. In a source it stops at the end
    of the line at the latest. -/
theorem front_append (byte : UInt8) {stop : UInt8} (ascii : stop < 0x80)
    (bytes more : List UInt8) : front byte (bytes ++ stop :: more) = front byte bytes := by
  unfold front
  cases asks : lead? byte with
  | none => rfl
  | some lead =>
      dsimp only
      rw [accepted_append (lead?_range asks).1 ascii]

/-- A lead byte takes no more bytes than there are, since each of them has to follow it. -/
theorem length_accepted_le (lead : Lead) (bytes : List UInt8) :
    (lead.accepted bytes).length ≤ bytes.length := by
  cases bytes with
  | nil => exact Nat.le_refl 0
  | cons byte bytes =>
      rw [Lead.accepted]
      split
      · have run := (List.takeWhile_sublist isTail (l := bytes.take (lead.tails - 1))).length_le
        have part := List.length_take_le' (lead.tails - 1) bytes
        simp only [List.length_cons]
        omega
      · exact Nat.zero_le _

/-- What is read at a byte lies within the bytes. Each step of decoding therefore leaves a rest of
    the source, and the recursion ends. -/
theorem front_le (byte : UInt8) (bytes : List UInt8) : (front byte bytes).2 ≤ bytes.length := by
  unfold front
  split
  · exact Nat.zero_le _
  · split
    · exact Nat.zero_le _
    · rename_i lead asks
      have bound := length_accepted_le lead bytes
      dsimp only
      split <;> exact bound

/-- Decoding can be cut in front of a byte of the first 128. By induction on the recursion of
    decoding, no character in front of the cut reads on past it. -/
theorem decodeChars_append {stop : UInt8} (ascii : stop < 0x80) (bytes more : List UInt8) :
    decodeChars (bytes ++ stop :: more) = decodeChars bytes ++ decodeChars (stop :: more) := by
  fun_induction decodeChars bytes with
  | case1 => rfl
  | case2 byte rest ih =>
      rw [List.cons_append, decodeChars_cons, front_append byte ascii,
        List.drop_append_of_le_length (front_le byte rest), ih, List.cons_append]

/-- Further continuation bytes only make a value larger, because each of them moves the bits before
    it up. -/
theorem le_payload (value : Nat) (tails : List UInt8) :
    value ≤ tails.foldl (fun value tail => value * 64 + tail.toNat % 64) value := by
  induction tails generalizing value with
  | nil => exact Nat.le_refl value
  | cons tail tails ih =>
      have later := ih (value * 64 + tail.toNat % 64)
      rw [List.foldl_cons]
      omega

/-- A character of several bytes is past the first 128. The lead byte alone makes it so, or the
    range of the first continuation byte does, which excludes overlong forms. -/
theorem codePoint_large {byte : UInt8} {lead : Lead} (asks : lead? byte = some lead)
    {bytes : List UInt8} (whole : (lead.accepted bytes).length = lead.tails) :
    128 ≤ codePoint byte (lead.accepted bytes) := by
  obtain ⟨low, high, range⟩ := lead?_range asks
  have asked : lead.tails ≠ 0 := by omega
  cases bytes with
  | nil => exact absurd whole.symm asked
  | cons first rest =>
      rw [Lead.accepted] at whole ⊢
      split at whole
      · rename_i inside
        rw [if_pos inside]
        generalize (rest.take (lead.tails - 1)).takeWhile isTail = more at whole
        rw [UInt8.le_iff_toNat_le, UInt8.le_iff_toNat_le] at inside
        rw [codePoint, whole, List.foldl_cons]
        -- Either the first two bytes are enough, or another continuation byte follows.
        rcases range with ⟨one, byteRange⟩ | ⟨two, byteRange⟩ | ⟨three, byteRange⟩
        · refine Nat.le_trans ?_ (le_payload _ more)
          rw [one]
          simp only [Nat.reduceShiftRight]
          omega
        · obtain ⟨second, later, rfl⟩ := List.exists_cons_of_length_pos (l := more) (by
            rw [List.length_cons] at whole
            omega)
          refine Nat.le_trans ?_ (le_payload _ later)
          rw [two]
          simp only [Nat.reduceShiftRight]
          omega
        · obtain ⟨second, later, rfl⟩ := List.exists_cons_of_length_pos (l := more) (by
            rw [List.length_cons] at whole
            omega)
          refine Nat.le_trans ?_ (le_payload _ later)
          rw [three]
          simp only [Nat.reduceShiftRight]
          omega
      · exact absurd whole.symm asked

/-- What is read at a byte: the byte itself, the null character, or a character past the
    first 128. -/
theorem front_char (byte : UInt8) (rest : List UInt8) :
    (front byte rest).1 = Char.ofNat byte.toNat ∨ (front byte rest).1 = '\x00' ∨
      128 ≤ (front byte rest).1.toNat := by
  have replaced : 128 ≤ replacement.toNat := by decide
  unfold front
  split
  · exact .inl rfl
  · split
    · exact .inr (.inr replaced)
    · rename_i lead asks
      dsimp only
      split
      · rename_i whole
        have large := codePoint_large asks whole
        generalize codePoint byte (lead.accepted rest) = value at large
        right
        by_cases isValid : value.isValidChar
        · right
          rw [Char.ofNat, dif_pos isValid]
          exact large
        · left
          rw [Char.ofNat, dif_neg isValid]
          rfl
      · exact .inr (.inr replaced)

/-- A character of the first 128 in a decoded text stands for itself in the bytes. -/
theorem mem_of_mem_decodeChars {bytes : List UInt8} {char : Char}
    (member : char ∈ decodeChars bytes) (ascii : char.toNat < 128) (notNull : char ≠ '\x00') :
    ∃ byte ∈ bytes, Char.ofNat byte.toNat = char := by
  fun_induction decodeChars bytes with
  | case1 => cases member
  | case2 byte rest ih =>
      rcases List.mem_cons.mp member with rfl | later
      · rcases front_char byte rest with same | null | large
        · exact ⟨byte, by simp, same.symm⟩
        · exact absurd null notNull
        · omega
      · obtain ⟨found, isRest, same⟩ := ih later
        exact ⟨found, List.mem_cons_of_mem byte (List.mem_of_mem_drop isRest), same⟩

end Offside.Utf8
