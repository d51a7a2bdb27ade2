import Offside.Proofs.Token.Segmentation

/-!
# Scanning line by line

A line break ends every piece, so nothing on one line of a source has an influence on the
pieces of another. Scanning a source is scanning its lines one after another, each from
its indentation on, and it stops at the first line with a fault. The line number a scan
starts with only shows in the tokens.

Blanks and comments at the end of a line add no tokens, except that spaces on a line
without anything else count as indentation.
-/

namespace Offside

open Segment

/-! ## What follows a piece -/

/-- The bytes start with a blank, a comment or a line break, or there are none. -/
def Separates (tail : List UInt8) : Prop :=
  ∀ next ∈ tail.head?, next ∈ [(0x20 : UInt8), 0x23, 0x0A, 0x0D]

/-- A run that the bytes behind it cannot continue is the same whether or not they are there. Only
    the first of them matters, since a run ends at the first byte that it does not admit. -/
theorem takeWhile_stopped {admitted : UInt8 → Bool} {tail : List UInt8}
    (stops : ∀ next ∈ tail.head?, admitted next = false) (rest : List UInt8) :
    (rest ++ tail).takeWhile admitted = rest.takeWhile admitted := by
  induction rest with
  | nil =>
      cases tail with
      | nil => rfl
      | cons next tail => simp [stops next rfl]
  | cons byte rest ih =>
      by_cases admits : admitted byte = true
      · simp [admits, ih]
      · simp [admits]

/-- What is left after such a run still has the bytes behind it at its end. With `takeWhile_stopped`
    this cuts a source at the same place with and without them. -/
theorem dropWhile_stopped {admitted : UInt8 → Bool} {tail : List UInt8}
    (stops : ∀ next ∈ tail.head?, admitted next = false) (rest : List UInt8) :
    (rest ++ tail).dropWhile admitted = rest.dropWhile admitted ++ tail := by
  induction rest with
  | nil =>
      cases tail with
      | nil => rfl
      | cons next tail => simp [stops next rfl]
  | cons byte rest ih =>
      by_cases admits : admitted byte = true
      · simp [admits, ih]
      · simp [admits]

/-- A run that admits neither a blank nor a comment nor a line break is stopped by what separates.
    This is how numbers and words are told apart from what follows them. -/
theorem Separates.stops {tail : List UInt8} (separates : Separates tail) {admitted : UInt8 → Bool}
    (outside : ∀ next ∈ [(0x20 : UInt8), 0x23, 0x0A, 0x0D], admitted next = false) :
    ∀ next ∈ tail.head?, admitted next = false :=
  fun next isNext => outside next (separates next isNext)

/-- No operator of two characters has a blank, a number sign or a line break as its second one.
    So a first character in front of what separates finds the partner that it finds without it,
    or none. -/
theorem Separates.unpaired {tail : List UInt8} (separates : Separates tail) (char : Char)
    (rest : List UInt8) :
    (rest ++ tail).head?.bind (fun next => Kind.ofPair? char (byteChar next)) =
      rest.head?.bind fun next => Kind.ofPair? char (byteChar next) := by
  cases rest with
  | cons next rest => rfl
  | nil =>
      rw [List.nil_append, List.head?_nil, Option.bind_none]
      cases tail with
      | nil => rfl
      | cons next tail =>
          have noSecond : ∀ next ∈ [(0x20 : UInt8), 0x23, 0x0A, 0x0D], ∀ entry ∈ pairs,
              entry.2.1 ≠ byteChar next := by decide +kernel
          rw [List.head?_cons, Option.bind_some]
          cases paired : Kind.ofPair? char (byteChar next) with
          | none => rfl
          | some kind =>
              have listed := (ofPair?_eq_some_iff _ _ _).mp paired
              exact absurd rfl (noSecond next (separates next rfl) _ listed)

/-- A string literal in front of what separates is closed there or not at all. -/
theorem front_quote_append {rest tail : List UInt8} (separates : Separates tail)
    (closed : (∀ next ∈ tail.head?, isStringByte next = false) ∨
      (Piece.front 0x22 rest).1 ≠ .openString) :
    Piece.front 0x22 (rest ++ tail) = Piece.front 0x22 rest := by
  obtain ⟨-, dropped, inside, -⟩ := run_cut isStringByte rest
  rw [front_quote] at closed
  rw [front_quote, front_quote]
  by_cases quoted : rest[(rest.takeWhile isStringByte).length]? = some 0x22
  · have here : (rest.takeWhile isStringByte).length < rest.length :=
      (List.getElem?_eq_some_iff.mp quoted).1
    have head : (rest.dropWhile isStringByte).head? = some 0x22 := by
      rw [← dropped, List.head?_drop, quoted]
    obtain ⟨later, ends⟩ := List.head?_eq_some_iff.mp head
    have cut : rest ++ tail = rest.takeWhile isStringByte ++ (0x22 :: (later ++ tail)) := by
      rw [← List.cons_append, ← ends, ← List.append_assoc, List.takeWhile_append_dropWhile]
    have same : (rest ++ tail).takeWhile isStringByte = rest.takeWhile isStringByte := by
      rw [cut]
      exact (takeWhile_run inside (by simp [show isStringByte 0x22 = false by decide +kernel])).1
    rw [same, List.getElem?_append_left here]
  · have stops : ∀ next ∈ tail.head?, isStringByte next = false := by
      rcases closed with stops | notOpen
      · exact stops
      · rw [if_neg quoted] at notOpen
        exact absurd rfl notOpen
    rw [takeWhile_stopped stops, if_neg quoted, if_neg]
    intro later
    by_cases here : (rest.takeWhile isStringByte).length < rest.length
    · rw [List.getElem?_append_left here] at later
      exact quoted later
    · have whole : (rest.takeWhile isStringByte).length = rest.length :=
        Nat.le_antisymm (List.takeWhile_sublist _).length_le (Nat.le_of_not_lt here)
      rw [whole, List.getElem?_append_right (Nat.le_refl _), Nat.sub_self,
        ← List.head?_eq_getElem?] at later
      exact absurd (separates _ later) (by decide +kernel)

/-- What separates leaves the piece in front of it as it is, comments and open strings
    apart. -/
theorem front_append {byte : UInt8} {rest tail : List UInt8} (separates : Separates tail)
    (sameBreak : BreaksLine (byte :: (rest ++ tail)) ↔ BreaksLine (byte :: rest))
    (noComment : byte ≠ 0x23)
    (closed : byte = 0x22 → (∀ next ∈ tail.head?, isStringByte next = false) ∨
      (Piece.front byte rest).1 ≠ .openString) :
    Piece.front byte (rest ++ tail) = Piece.front byte rest := by
  by_cases isSpace : byte = 0x20
  · subst isSpace
    rw [front_space, front_space]
  by_cases breaks : BreaksLine (byte :: rest)
  · obtain ⟨later, same | same⟩ := breaks
    · cases same
      rw [front_lineFeed, front_lineFeed]
    · cases same
      rw [List.cons_append, front_carriageReturn, front_carriageReturn]
  by_cases isQuote : byte = 0x22
  · subst isQuote
    exact front_quote_append separates (closed rfl)
  have noBreak := mt sameBreak.mp breaks
  rw [front_plain isSpace noBreak noComment isQuote, front_plain isSpace breaks noComment isQuote,
    takeWhile_stopped (separates.stops (by decide +kernel)),
    takeWhile_stopped (separates.stops (by decide +kernel)),
    separates.unpaired]

/-! ## The bytes of a piece -/

/-- A comment stays on its line: it is no longer than the bytes that are left, and no line feed is
    among them, since the text of a comment ends where a line break starts. -/
theorem commentLength_within (rest : List UInt8) :
    commentLength rest ≤ rest.length ∧ 0x0A ∉ rest.take (commentLength rest) := by
  induction rest with
  | nil => simp [commentLength]
  | cons byte rest ih =>
      rw [commentLength]
      by_cases breaks : startsLineBreak (byte :: rest) = true
      · simp [breaks]
      · rw [if_neg breaks, List.take_succ_cons, List.mem_cons, List.length_cons]
        refine ⟨Nat.succ_le_succ ih.1, ?_⟩
        rintro (rfl | later)
        · exact breaks ((startsLineBreak_iff _).mpr ⟨rest, .inl rfl⟩)
        · exact ih.2 later

/-- A run of bytes of one class stays on its line, too, if the class does not admit the line feed.
    It serves words, numbers and the bodies of strings alike. -/
theorem run_within (admitted : UInt8 → Bool) (noFeed : admitted 0x0A = false)
    (rest : List UInt8) :
    (rest.takeWhile admitted).length ≤ rest.length ∧
      0x0A ∉ rest.take (rest.takeWhile admitted).length := by
  obtain ⟨taken, -, inside, -⟩ := run_cut admitted rest
  refine ⟨(List.takeWhile_sublist _).length_le, fun member => ?_⟩
  rw [taken] at member
  exact Bool.false_ne_true (noFeed.symm.trans (inside _ member))

/-- A piece lies within the unread bytes, and it holds no line feed unless it is a line
    break. -/
theorem front_within (byte : UInt8) (rest : List UInt8) :
    (Piece.front byte rest).2 ≤ rest.length ∧
      ((Piece.front byte rest).1 ≠ .lineBreak →
        0x0A ∉ byte :: rest.take (Piece.front byte rest).2) := by
  by_cases isSpace : byte = 0x20
  · subst isSpace
    rw [front_space]
    exact ⟨Nat.zero_le _, fun _ => by simp⟩
  by_cases breaks : BreaksLine (byte :: rest)
  · obtain ⟨later, same | same⟩ := breaks
    · cases same
      rw [front_lineFeed]
      exact ⟨Nat.zero_le _, fun noBreak => absurd rfl noBreak⟩
    · cases same
      rw [front_carriageReturn]
      exact ⟨by simp, fun noBreak => absurd rfl noBreak⟩
  have noFeed : ¬ (0x0A : UInt8) = byte := by
    rintro rfl
    exact breaks ⟨rest, .inl rfl⟩
  simp only [List.mem_cons, noFeed, false_or]
  by_cases isComment : byte = 0x23
  · subst isComment
    rw [front_comment]
    exact ⟨(commentLength_within rest).1, fun _ => (commentLength_within rest).2⟩
  by_cases isQuote : byte = 0x22
  · subst isQuote
    obtain ⟨fits, free⟩ := run_within isStringByte (by decide +kernel) rest
    rw [front_quote]
    by_cases quoted : rest[(rest.takeWhile isStringByte).length]? = some 0x22
    · rw [if_pos quoted]
      refine ⟨(List.getElem?_eq_some_iff.mp quoted).1, fun _ => ?_⟩
      rw [List.take_add_one, quoted]
      simpa using free
    · rw [if_neg quoted]
      exact ⟨fits, fun _ => free⟩
  -- what is left is a number, a word or a mark, and no class of bytes has the line feed in it
  rw [front_plain isSpace breaks isComment isQuote]
  by_cases digit : (byteChar byte).isDigit = true
  · obtain ⟨fits, free⟩ := run_within isNumberByte (by decide +kernel) rest
    rw [if_pos digit]
    split
    · exact ⟨fits, fun _ => free⟩
    · exact ⟨fits, fun _ => free⟩
  rw [if_neg digit]
  by_cases letter : (byteChar byte).isAlpha = true
  · rw [if_pos letter]
    obtain ⟨fits, free⟩ := run_within isWordByte (by decide +kernel) rest
    exact ⟨fits, fun _ => free⟩
  rw [if_neg letter]
  cases rest with
  | nil => exact ⟨Nat.zero_le _, fun _ => by simp⟩
  | cons next rest =>
      rw [List.head?_cons, Option.bind_some]
      cases paired : Kind.ofPair? (byteChar byte) (byteChar next) with
      | none => exact ⟨Nat.zero_le _, fun _ => by simp⟩
      | some kind =>
          refine ⟨by simp, fun _ => ?_⟩
          have noFeed : ∀ entry ∈ pairs, entry.2.1 ≠ byteChar 0x0A := by decide +kernel
          have listed := (ofPair?_eq_some_iff _ _ _).mp paired
          simp only [List.take_succ_cons, List.take_zero, List.mem_singleton]
          rintro rfl
          exact absurd rfl (noFeed _ listed)

/-- A piece that is a line break has been cut off as one of the two forms of a line end, a line feed
    alone or one after a carriage return, and as nothing else. -/
theorem front_lineBreak {byte : UInt8} {rest : List UInt8}
    (isBreak : (Piece.front byte rest).1 = .lineBreak) :
    byte :: rest.take (Piece.front byte rest).2 = [0x0A] ∨
      byte :: rest.take (Piece.front byte rest).2 = [0x0D, 0x0A] := by
  have found : ofPiece? (Piece.front byte rest).1 (byte :: rest.take (Piece.front byte rest).2) =
      some (.lineBreak (byte :: rest.take (Piece.front byte rest).2)) := by
    rw [isBreak]
    rfl
  rcases longest_of_front found with spaces | longest
  · cases spaces
  · generalize byte :: rest.take (Piece.front byte rest).2 = bytes at longest
    cases longest with
    | lineFeed rest => exact .inl rfl
    | carriageReturn rest => exact .inr rfl

/-- Where no line feed is left, no line break is found, because both forms of a line break are told
    by theirs. -/
theorem front_inLine {byte : UInt8} {rest : List UInt8} (noFeed : 0x0A ∉ byte :: rest) :
    (Piece.front byte rest).1 ≠ .lineBreak := by
  intro isBreak
  have feed : 0x0A ∈ byte :: rest.take (Piece.front byte rest).2 := by
    rcases front_lineBreak isBreak with same | same <;> simp [same]
  exact noFeed (List.cons_subset_cons _ (List.take_subset _ _) feed)

/-- No line end starts in a text without line feeds, because either form of a line end has one. -/
theorem not_breaksLine {text : List UInt8} (noFeed : 0x0A ∉ text) : ¬ BreaksLine text := by
  rintro ⟨rest, rfl | rfl⟩
  · exact noFeed List.mem_cons_self
  · exact noFeed (List.mem_cons_of_mem _ List.mem_cons_self)

/-- A comment takes all that is left of the last line, which no line feed ends before. -/
theorem commentLength_text {text : List UInt8} (noFeed : 0x0A ∉ text) :
    commentLength text = text.length := by
  have whole : commentLength (text ++ []) = text.length := by
    refine commentLength_append (fun tail _ isTail => ?_) (.inl rfl)
    rw [List.append_nil]
    exact not_breaksLine fun member => noFeed (isTail.subset member)
  rwa [List.append_nil] at whole

/-! ## One line after another -/

/-- The failure some lines further down. -/
def Failure.below (count : Nat) : Failure → Failure
  | .lexical diagnostic => .lexical { diagnostic with line := diagnostic.line + count }
  | .parse diagnostic => .parse { diagnostic with line := diagnostic.line + count }
  | .analysis rule diagnostic =>
      .analysis rule { diagnostic with line := diagnostic.line + count }
  | .emission diagnostic => .emission { diagnostic with line := diagnostic.line + count }

namespace Token

/-- The tokens of bytes that start a line. -/
def scanFrom (line : Nat) (bytes : List UInt8) : Except Failure (List Token) := do
  let later ← scanLines line (bytes.dropWhile isSpace)
  return indentation line bytes ++ later

/-- A source that is not empty is scanned like a first line: its indentation on line 1, and then the
    rest. Only the empty source is rejected by `scan` itself. -/
theorem scan_eq_scanFrom {source : List UInt8} (nonempty : source ≠ []) :
    scan source = scanFrom 1 source := by
  have notEmpty : source.isEmpty = false := by simpa using nonempty
  rw [scan, notEmpty, if_neg Bool.false_ne_true]
  rfl

/-- After a line break a scan starts over on the next line, indentation first. What comes before the
    break shows only in the line number. -/
theorem scanLines_lineBreak {byte : UInt8} {rest : List UInt8} (line : Nat)
    (isBreak : (Piece.front byte rest).1 = .lineBreak) :
    scanLines line (byte :: rest) = do
      let later ← scanFrom (line + 1) (rest.drop (Piece.front byte rest).2)
      return newline line :: later := by
  simp only [scanLines, isBreak, scanFrom, bind_assoc, pure_bind]

/-- How a line with this text may be ended. Where its text ends in a carriage return, a
    line feed alone would not end it there. -/
inductive EndsLine (text : List UInt8) : List UInt8 → Prop where
  | lineFeed (plain : text.getLast? ≠ some 0x0D) : EndsLine text [0x0A]
  | carriageReturn : EndsLine text [0x0D, 0x0A]

/-- What ends a line also ends it after any number of its first bytes. The condition on a last
    carriage return is about the end of the text, and the end is the same. -/
theorem EndsLine.suffix {text ending tail : List UInt8} (ends : EndsLine text ending)
    (isTail : tail <:+ text) : EndsLine tail ending := by
  cases ends with
  | carriageReturn => exact .carriageReturn
  | lineFeed plain =>
      refine .lineFeed fun last => plain ?_
      obtain ⟨before, rfl⟩ := isTail
      rw [List.getLast?_append, last]
      rfl

/-- No line break stands before the end of the line. A carriage return in the text is followed by
    something other than the line feed, except in the one case that the form of the end excludes. -/
theorem EndsLine.inLine {text ending : List UInt8} (ends : EndsLine text ending)
    (noFeed : 0x0A ∉ text) (nonempty : text ≠ []) (rest : List UInt8) :
    ¬ BreaksLine (text ++ (ending ++ rest)) := by
  obtain ⟨byte, text, rfl⟩ := List.exists_cons_of_ne_nil nonempty
  rw [List.mem_cons, not_or] at noFeed
  rintro ⟨later, same | same⟩
  · exact noFeed.1 (List.cons.inj same).1.symm
  · cases text with
    | cons next text =>
        cases same
        exact noFeed.2 List.mem_cons_self
    | nil =>
        cases ends with
        | carriageReturn => cases same
        | lineFeed plain =>
            cases same
            exact plain rfl

/-- The end of a line separates what stands before it, and no string literal goes on over it either.
    So the two conditions under which a piece is cut the same hold at every end of a line. -/
theorem EndsLine.separates {text ending : List UInt8} (ends : EndsLine text ending)
    (rest : List UInt8) :
    Separates (ending ++ rest) ∧ ∀ next ∈ (ending ++ rest).head?, isStringByte next = false := by
  cases ends with
  | lineFeed plain => exact ⟨by simp [Separates], by simp; decide +kernel⟩
  | carriageReturn => exact ⟨by simp [Separates], by simp; decide +kernel⟩

/-- No piece of a line depends on what comes after the line. -/
theorem front_line {byte : UInt8} {text ending : List UInt8} (noFeed : 0x0A ∉ byte :: text)
    (ends : EndsLine (byte :: text) ending) (rest : List UInt8) :
    Piece.front byte (text ++ (ending ++ rest)) = Piece.front byte text := by
  by_cases isComment : byte = 0x23
  · subst isComment
    have noFeed : 0x0A ∉ text := fun member => noFeed (List.mem_cons_of_mem _ member)
    rw [front_comment, front_comment, commentLength_text noFeed, commentLength_append]
    · intro tail nonempty isTail
      exact (ends.suffix (isTail.trans (List.suffix_cons _ _))).inLine
        (fun member => noFeed (isTail.subset member)) nonempty rest
    · cases ends with
      | lineFeed plain => exact .inr ⟨rest, .inl rfl⟩
      | carriageReturn => exact .inr ⟨rest, .inr rfl⟩
  · have inLine := ends.inLine noFeed (by simp) rest
    exact front_append (ends.separates rest).1 (iff_of_false inLine (not_breaksLine noFeed))
      isComment fun _ => .inl (ends.separates rest).2

/-- Scanning goes from line to line. Piece by piece, the pieces of the first line are those that it
    has alone, so its scan is not changed by the lines that come after it. -/
theorem scanLines_append {text ending : List UInt8} (noFeed : 0x0A ∉ text)
    (ends : EndsLine text ending) (line : Nat) (rest : List UInt8) :
    scanLines line (text ++ (ending ++ rest)) = do
      let first ← scanLines line text
      let later ← scanFrom (line + 1) rest
      return first ++ newline line :: later := by
  -- what a piece takes from the line, the rest of the line is left with
  have shorter {byte : UInt8} {text : List UInt8} (noFeed : 0x0A ∉ byte :: text)
      (ends : EndsLine (byte :: text) ending) :
      0x0A ∉ text.drop (Piece.front byte text).2 ∧
        EndsLine (text.drop (Piece.front byte text).2) ending := by
    have isTail : text.drop (Piece.front byte text).2 <:+ byte :: text :=
      (List.drop_suffix _ _).trans (List.suffix_cons _ _)
    exact ⟨fun member => noFeed (isTail.subset member), ends.suffix isTail⟩
  induction line, text using scanLines.induct with
  | case1 line =>
      cases ends with
      | lineFeed plain =>
          rw [List.nil_append, List.cons_append,
            scanLines_lineBreak line (congrArg Prod.fst (front_lineFeed _)), front_lineFeed,
            scanLines]
          rfl
      | carriageReturn =>
          rw [List.nil_append, List.cons_append, List.cons_append,
            scanLines_lineBreak line (congrArg Prod.fst (front_carriageReturn _)),
            front_carriageReturn, scanLines]
          rfl
  | case2 line byte text unread isGap ih =>
      obtain ⟨noLaterFeed, laterEnds⟩ := shorter noFeed ends
      have later := ih noLaterFeed laterEnds
      simp only [List.cons_append, scanLines, front_line noFeed ends, isGap,
        List.drop_append_of_le_length (front_within byte text).1]
      exact later
  | case3 line byte text unread isBreak ih => exact absurd isBreak (front_inLine noFeed)
  | case4 line byte text unread kind isLexeme ih =>
      obtain ⟨noLaterFeed, laterEnds⟩ := shorter noFeed ends
      have later := ih noLaterFeed laterEnds
      simp only [List.cons_append, scanLines, front_line noFeed ends, isLexeme,
        List.drop_append_of_le_length (front_within byte text).1,
        List.take_append_of_le_length (front_within byte text).1]
      rw [later]
      simp only [bind_assoc, pure_bind, List.cons_append]
      rfl
  | case5 line byte text isOpen =>
      simp only [List.cons_append, scanLines, front_line noFeed ends, isOpen]
      rfl
  | case6 line byte text isOpen =>
      simp only [List.cons_append, scanLines, front_line noFeed ends, isOpen,
        List.take_append_of_le_length (front_within byte text).1]
      rfl

/-- Nothing is on an empty line at the end of a source, and no token is made for it. -/
theorem scanFrom_nil (line : Nat) : scanFrom line [] = .ok [] := by
  rw [scanFrom, List.dropWhile_nil, scanLines]
  rfl

/-- A line with its end is scanned before the lines that follow it, from its indentation on. Its
    tokens, its line break and the later tokens stand one after another, and the first fault of
    either part is the fault of the whole. -/
theorem scanFrom_line {text ending : List UInt8} (noFeed : 0x0A ∉ text)
    (ends : EndsLine text ending) (line : Nat) (rest : List UInt8) :
    scanFrom line (text ++ (ending ++ rest)) = do
      let first ← scanFrom line text
      let later ← scanFrom (line + 1) rest
      return first ++ newline line :: later := by
  have stops : ∀ next ∈ (ending ++ rest).head?, isSpace next = false := by
    cases ends with
    | lineFeed plain => simp [show isSpace 0x0A = false by decide]
    | carriageReturn => simp [show isSpace 0x0D = false by decide]
  have isTail : text.dropWhile isSpace <:+ text := List.dropWhile_suffix isSpace
  have scanned := scanLines_append (fun member => noFeed (isTail.subset member))
    (ends.suffix isTail) line rest
  simp only [scanFrom, indentation] at scanned ⊢
  rw [dropWhile_stopped stops, takeWhile_stopped stops, scanned]
  simp only [bind_assoc, pure_bind, List.append_assoc]

/-- Such a scan succeeds exactly if both of its parts do. Stated as an equivalence it is taken apart
    by the proofs that replace one line by another. -/
theorem scanFrom_line_ok_iff {text ending rest : List UInt8} (noFeed : 0x0A ∉ text)
    (ends : EndsLine text ending) {line : Nat} {tokens : List Token} :
    scanFrom line (text ++ (ending ++ rest)) = .ok tokens ↔
      ∃ first later, scanFrom line text = .ok first ∧ scanFrom (line + 1) rest = .ok later ∧
        tokens = first ++ newline line :: later := by
  rw [scanFrom_line noFeed ends]
  cases scanFrom line text with
  | error failure => simp [Bind.bind, Except.bind]
  | ok first =>
      cases scanFrom (line + 1) rest with
      | error failure => simp [Bind.bind, Except.bind]
      | ok later => simp [Bind.bind, Except.bind, Pure.pure, Except.pure, eq_comm]

/-- Lines, each with its end. -/
inductive WholeLines : List UInt8 → Prop where
  | nil : WholeLines []
  | line {text ending rest : List UInt8} (noFeed : 0x0A ∉ text) (ends : EndsLine text ending)
      (later : WholeLines rest) : WholeLines (text ++ (ending ++ rest))

/-- Each line adds one line feed to those of the bytes after it, in either form of its end. Line
    numbers are counted by this. -/
theorem EndsLine.count {text ending : List UInt8} (noFeed : 0x0A ∉ text)
    (ends : EndsLine text ending) (rest : List UInt8) :
    (text ++ (ending ++ rest)).count 0x0A = rest.count 0x0A + 1 := by
  rw [List.count_append, List.count_eq_zero.mpr noFeed, Nat.zero_add]
  cases ends with
  | lineFeed plain => exact List.count_cons_self
  | carriageReturn => simp

/-- Bytes with a line feed start with a whole line: its text, without line feeds, and an end of
    either form. The text is what stands before the first line feed, less a carriage return at its
    end. -/
theorem exists_line {bytes : List UInt8} (feed : 0x0A ∈ bytes) :
    ∃ text ending rest, bytes = text ++ (ending ++ rest) ∧ 0x0A ∉ text ∧
      EndsLine text ending := by
  obtain ⟨before, rest, rfl, noFeed⟩ := List.eq_append_cons_of_mem feed
  by_cases ended : before.getLast? = some 0x0D
  · obtain ⟨text, rfl⟩ := List.getLast?_eq_some_iff.mp ended
    refine ⟨text, [0x0D, 0x0A], rest, by simp, ?_, .carriageReturn⟩
    exact fun member => noFeed (List.mem_append_left _ member)
  · exact ⟨before, [0x0A], rest, by simp, noFeed, .lineFeed ended⟩

/-- Bytes up to a line feed are whole lines. By induction on the number of line feeds one line is
    split off the front, and what is left ends with the same line feed or is empty. -/
theorem wholeLines_of_getLast? {bytes : List UInt8} (last : bytes.getLast? = some 0x0A) :
    WholeLines bytes := by
  generalize counted : bytes.count 0x0A = count
  induction count generalizing bytes with
  | zero => exact absurd (List.mem_of_getLast? last) (List.count_eq_zero.mp counted)
  | succ count ih =>
      obtain ⟨text, ending, later, rfl, noFeed, ends⟩ := exists_line (List.mem_of_getLast? last)
      rw [ends.count noFeed] at counted
      refine .line noFeed ends ?_
      by_cases empty : later = []
      · exact empty ▸ .nil
      · rw [← List.append_assoc, List.getLast?_append_of_ne_nil _ empty] at last
        exact ih last (by omega)

/-- Whole lines are scanned apart from what follows them. The induction is on the lines, and
    `scanFrom_line` takes the first one off. -/
theorem scanFrom_append {lines : List UInt8} (whole : WholeLines lines) (line : Nat)
    (rest : List UInt8) :
    scanFrom line (lines ++ rest) = do
      let first ← scanFrom line lines
      let later ← scanFrom (line + lines.count 0x0A) rest
      return first ++ later := by
  induction whole generalizing line with
  | nil =>
      rw [scanFrom_nil, List.nil_append, List.count_nil, Nat.add_zero]
      cases scanFrom line rest <;> rfl
  | line noFeed ends later ih =>
      rw [List.append_assoc, List.append_assoc, scanFrom_line noFeed ends,
        scanFrom_line noFeed ends, ih, ends.count noFeed]
      simp only [bind_assoc, pure_bind, List.append_assoc, List.cons_append, Nat.add_assoc,
        Nat.add_comm 1]

/-- Whole lines and what follows them are scanned successfully exactly if both are, the second part
    with a line number that is larger by the number of line feeds in the first. -/
theorem scanFrom_append_ok_iff {lines rest : List UInt8} (whole : WholeLines lines) {line : Nat}
    {tokens : List Token} :
    scanFrom line (lines ++ rest) = .ok tokens ↔
      ∃ first later, scanFrom line lines = .ok first ∧
        scanFrom (line + lines.count 0x0A) rest = .ok later ∧ tokens = first ++ later := by
  rw [scanFrom_append whole]
  cases scanFrom line lines with
  | error failure => simp [Bind.bind, Except.bind]
  | ok first =>
      cases scanFrom (line + lines.count 0x0A) rest with
      | error failure => simp [Bind.bind, Except.bind]
      | ok later => simp [Bind.bind, Except.bind, Pure.pure, Except.pure, eq_comm]

/-- The token some lines further down. -/
def below (count : Nat) (token : Token) : Token :=
  { token with line := token.line + count }

/-- The tokens of an indentation depend on the line number in no other way than that they carry
    it. -/
theorem indentation_below (line count : Nat) (bytes : List UInt8) :
    (indentation line bytes).map (below count) = indentation (line + count) bytes := by
  rw [indentation, List.map_replicate]
  rfl

/-- What becomes of a scan some lines further down: its tokens and its failure stand on
    other lines. -/
def scanBelow (count : Nat) (scanned : Except Failure (List Token)) :
    Except Failure (List Token) :=
  (scanned.map (List.map (below count))).mapError (Failure.below count)

/-- Tokens in front of those of a scan are moved with them. -/
theorem scanBelow_prepend (count : Nat) (first : List Token)
    (scanned : Except Failure (List Token)) :
    (scanBelow count do let later ← scanned; return first ++ later) = do
      let later ← scanBelow count scanned
      return first.map (below count) ++ later := by
  cases scanned with
  | error failure => rfl
  | ok later => exact congrArg Except.ok List.map_append

/-- Where a scan starts only shows in line numbers. Moving the start by some lines moves each token
    and, if the scan fails, the diagnostic by as many. -/
theorem scanLines_add (line count : Nat) (bytes : List UInt8) :
    scanLines (line + count) bytes = scanBelow count (scanLines line bytes) := by
  induction line, bytes using scanLines.induct with
  | case1 line =>
      rw [scanLines, scanLines]
      rfl
  | case2 line byte rest unread isGap ih =>
      simp only [scanLines, isGap]
      exact ih
  | case3 line byte rest unread isBreak ih =>
      simp only [scanLines, isBreak]
      have moved := scanBelow_prepend count (newline line :: indentation (line + 1) unread)
        (scanLines (line + 1) (unread.dropWhile isSpace))
      rw [← ih, List.map_cons, indentation_below, Nat.add_right_comm line 1 count] at moved
      exact moved.symm
  | case4 line byte rest unread kind isLexeme ih =>
      simp only [scanLines, isLexeme]
      have moved := scanBelow_prepend count
        [⟨kind, Utf8.decode (byte :: rest.take (Piece.front byte rest).2), line⟩]
        (scanLines line unread)
      rw [← ih] at moved
      exact moved.symm
  | case5 line byte rest isOpen =>
      simp only [scanLines, isOpen]
      rfl
  | case6 line byte rest isOpen =>
      simp only [scanLines, isOpen]
      rfl

/-- The same holds for bytes that start a line, whose indentation is numbered with them. -/
theorem scanFrom_add (line count : Nat) (bytes : List UInt8) :
    scanFrom (line + count) bytes = scanBelow count (scanFrom line bytes) := by
  rw [scanFrom, scanFrom, scanLines_add, scanBelow_prepend, indentation_below]

/-- A scan that succeeds does so on every other line, with the same tokens moved there. In
    particular no source is rejected for where it starts. -/
theorem scanFrom_below {line : Nat} {bytes : List UInt8} {tokens : List Token}
    (scanned : scanFrom line bytes = .ok tokens) (count : Nat) :
    scanFrom (line + count) bytes = .ok (tokens.map (below count)) := by
  rw [scanFrom_add, scanned]
  rfl

/-! ## Blanks at the end of a line -/

/-- Spaces, and after them a comment or nothing. -/
inductive Trailing : List UInt8 → Prop where
  | spaces (count : Nat) : Trailing (List.replicate count 0x20)
  | comment (count : Nat) (text : List UInt8) (noFeed : 0x0A ∉ text) :
      Trailing (List.replicate count 0x20 ++ 0x23 :: text)

/-- What trails on a line does not leave it, since neither spaces nor comments have a line feed. -/
theorem Trailing.noFeed {bytes : List UInt8} (trailing : Trailing bytes) : 0x0A ∉ bytes := by
  cases trailing with
  | spaces count => simp
  | comment count text noFeed => simpa using noFeed

/-- What trails on a line separates, so a piece in front of it is the same as without it. It starts
    with a space or a number sign if it is not empty. -/
theorem Trailing.separates {bytes : List UInt8} (trailing : Trailing bytes) :
    Separates bytes := by
  cases trailing with
  | spaces count => cases count <;> simp [Separates, List.replicate_succ]
  | comment count text noFeed => cases count <;> simp [Separates, List.replicate_succ]

/-- Without the spaces at its front it is still something that trails: the comment alone, or
    nothing. -/
theorem Trailing.dropWhile {bytes : List UInt8} (trailing : Trailing bytes) :
    Trailing (bytes.dropWhile isSpace) := by
  have spaces (count : Nat) :
      ∀ byte ∈ List.replicate count (0x20 : UInt8), isSpace byte = true := by
    intro byte member
    rw [List.eq_of_mem_replicate member]
    decide
  cases trailing with
  | spaces count =>
      rw [List.dropWhile_eq_nil_iff.mpr (spaces count)]
      exact .spaces 0
  | comment count text noFeed =>
      rw [(takeWhile_run (spaces count) (by simp [show isSpace 0x23 = false by decide])).2]
      exact .comment 0 text noFeed

/-- A comment up to the end of the bytes gives no tokens, whatever it says. -/
theorem scanLines_comment {text : List UInt8} (noFeed : 0x0A ∉ text) (line : Nat) :
    scanLines line (0x23 :: text) = .ok [] := by
  simp only [scanLines, front_comment, commentLength_text noFeed, List.drop_length]

/-- What trails on a line gives no tokens once the indentation has been taken off, by induction on
    the spaces in front of the comment. -/
theorem Trailing.scanLines {bytes : List UInt8} (trailing : Trailing bytes) (line : Nat) :
    scanLines line bytes = .ok [] := by
  cases trailing with
  | spaces count =>
      induction count with
      | zero => rw [List.replicate_zero, Token.scanLines]
      | succ count ih =>
          simp only [List.replicate_succ, Token.scanLines, front_space, List.drop_zero, ih]
  | comment count text noFeed =>
      induction count with
      | zero => exact scanLines_comment noFeed line
      | succ count ih =>
          simp only [List.replicate_succ, List.cons_append, Token.scanLines, front_space,
            List.drop_zero, ih]

/-- A line that is scanned is scanned the same with blanks at its end. -/
theorem scanLines_trailing {line : Nat} {text bytes : List UInt8} {tokens : List Token}
    (noFeed : 0x0A ∉ text) (scanned : scanLines line text = .ok tokens)
    (trailing : Trailing bytes) : scanLines line (text ++ bytes) = .ok tokens := by
  have front {byte : UInt8} {text : List UInt8} (noFeed : 0x0A ∉ byte :: text)
      (noComment : byte ≠ 0x23) (closed : (Piece.front byte text).1 ≠ .openString) :
      Piece.front byte (text ++ bytes) = Piece.front byte text := by
    have inLine : ¬ BreaksLine (byte :: (text ++ bytes)) := by
      apply not_breaksLine
      rw [← List.cons_append, List.mem_append, not_or]
      exact ⟨noFeed, trailing.noFeed⟩
    exact front_append trailing.separates (iff_of_false inLine (not_breaksLine noFeed)) noComment
      fun _ => .inr closed
  induction line, text using scanLines.induct generalizing tokens with
  | case1 line =>
      rw [Token.scanLines] at scanned
      cases scanned
      exact trailing.scanLines line
  | case2 line byte text unread isGap =>
      rename_i ih
      have noLaterFeed : 0x0A ∉ text := fun member => noFeed (List.mem_cons_of_mem _ member)
      -- a comment takes in the blanks, every other gap ends where it did
      by_cases isComment : byte = 0x23
      · subst isComment
        have noFeeds : 0x0A ∉ text ++ bytes := by
          rw [List.mem_append, not_or]
          exact ⟨noLaterFeed, trailing.noFeed⟩
        rw [List.cons_append, scanLines_comment noFeeds]
        rwa [scanLines_comment noLaterFeed] at scanned
      · simp only [Token.scanLines, isGap] at scanned
        simp only [List.cons_append, Token.scanLines,
          front noFeed isComment (by rw [isGap]; decide), isGap,
          List.drop_append_of_le_length (front_within byte text).1]
        exact ih (fun member => noLaterFeed (List.mem_of_mem_drop member)) scanned
  | case3 line byte text unread isBreak =>
      exact absurd isBreak (front_inLine noFeed)
  | case4 line byte text unread kind isLexeme =>
      rename_i ih
      have noLaterFeed : 0x0A ∉ text := fun member => noFeed (List.mem_cons_of_mem _ member)
      have noComment : byte ≠ 0x23 := by
        rintro rfl
        rw [front_comment] at isLexeme
        cases isLexeme
      simp only [Token.scanLines, isLexeme] at scanned
      obtain ⟨later, scannedLater, same⟩ := map_ok_iff.mp scanned
      subst same
      simp only [List.cons_append, Token.scanLines,
        front noFeed noComment (by rw [isLexeme]; simp), isLexeme,
        List.drop_append_of_le_length (front_within byte text).1,
        List.take_append_of_le_length (front_within byte text).1]
      rw [ih (fun member => noLaterFeed (List.mem_of_mem_drop member)) scannedLater]
      rfl
  | case5 line byte text isOpen => simp [Token.scanLines, isOpen] at scanned
  | case6 line byte text isOpen => simp [Token.scanLines, isOpen] at scanned

/-- Blanks at the end of a line change its tokens only if all of them are indentation. -/
theorem scanFrom_trailing {line : Nat} {text bytes : List UInt8} {tokens : List Token}
    (noFeed : 0x0A ∉ text) (scanned : scanFrom line text = .ok tokens)
    (trailing : Trailing bytes) :
    ∃ others, scanFrom line (text ++ bytes) = .ok others ∧
      (others = tokens ∨ (∀ token ∈ tokens, token.kind = .indent) ∧
        ∀ token ∈ others, token.kind = .indent) := by
  obtain ⟨later, scannedLater, same⟩ := map_ok_iff.mp scanned
  subst same
  have indents (bytes : List UInt8) : ∀ token ∈ indentation line bytes, token.kind = .indent := by
    intro token member
    rw [List.eq_of_mem_replicate member]
    rfl
  have isTail : text.dropWhile isSpace <:+ text := List.dropWhile_suffix isSpace
  by_cases blank : text.dropWhile isSpace = []
  · rw [blank, Token.scanLines] at scannedLater
    cases scannedLater
    refine ⟨indentation line (text ++ bytes) ++ [], ?_, .inr ?_⟩
    · rw [scanFrom, List.dropWhile_append, blank, List.isEmpty_nil, if_pos rfl,
        trailing.dropWhile.scanLines]
      rfl
    · simpa using ⟨indents text, indents (text ++ bytes)⟩
  · have short : ¬ (text.takeWhile isSpace).length = text.length := by
      intro whole
      have lengths :=
        congrArg List.length (List.takeWhile_append_dropWhile (p := isSpace) (l := text))
      rw [List.length_append] at lengths
      exact blank (List.length_eq_zero_iff.mp (by omega))
    refine ⟨indentation line text ++ later, ?_, .inl rfl⟩
    have kept := scanLines_trailing (fun member => noFeed (isTail.subset member)) scannedLater
      trailing
    rw [scanFrom, List.dropWhile_append, if_neg (by simpa using blank), kept, indentation,
      List.takeWhile_append, if_neg short]
    rfl

end Token

end Offside
