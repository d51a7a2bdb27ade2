import Offside.Compile
import Offside.Proofs.Text.Encoding
import Offside.Proofs.Token.Lineation
import Offside.Proofs.Traced

/-!
# Where lines end

A line feed ends a line whatever stands on it: no string, number, comment or indentation
goes on behind it. So the two sides of a line feed are scanned on their own, and the line
numbers of the second are all that shows the first.

A carriage return in front of a line feed belongs to the line break. Sources that differ
in such carriage returns only have the same tokens, and compile alike.
-/

namespace Offside

open Token

/-! ## The two sides of a line feed -/

/-- The second side is scanned as a source of its own, with its lines counted on from those of the
    first side. -/
theorem scan_lineFeed (before : List UInt8) {after : List UInt8} (nonempty : after ≠ []) :
    scan (before ++ 0x0A :: after) = do
      let first ← scan (before ++ [0x0A])
      let later ← scanBelow (1 + before.count 0x0A) (scan after)
      return first ++ later := by
  have whole : WholeLines (before ++ [0x0A]) := wholeLines_of_getLast? (by simp)
  have feeds : (before ++ [0x0A]).count 0x0A = 1 + before.count 0x0A := by
    simp [List.count_append, Nat.add_comm]
  rw [List.append_cons, scan_eq_scanFrom (by simp), scanFrom_append whole,
    scan_eq_scanFrom (by simp), scan_eq_scanFrom nonempty, feeds, scanFrom_add]

/-- A source with a line feed in it, and bytes after that, is scanned exactly when both
    sides of the line feed are. Its tokens are those of the two sides, the second moved down
    by the lines of the first. A fault in the first side is the fault of the source, and
    otherwise one in the second is, moved down like the tokens. -/
theorem scan_across_lineFeed (before : List UInt8) {after : List UInt8} (nonempty : after ≠ []) :
    ((∃ tokens, scan (before ++ 0x0A :: after) = .ok tokens) ↔
        (∃ first, scan (before ++ [0x0A]) = .ok first) ∧ ∃ later, scan after = .ok later) ∧
      (∀ first later, scan (before ++ [0x0A]) = .ok first → scan after = .ok later →
        scan (before ++ 0x0A :: after) =
          .ok (first ++ later.map (below (1 + before.count 0x0A)))) ∧
      (∀ failure, scan (before ++ [0x0A]) = .error failure →
        scan (before ++ 0x0A :: after) = .error failure) ∧
      ∀ first failure, scan (before ++ [0x0A]) = .ok first → scan after = .error failure →
        scan (before ++ 0x0A :: after) =
          .error (failure.below (1 + before.count 0x0A)) := by
  rw [scan_lineFeed before nonempty]
  generalize scan (before ++ [0x0A]) = first
  generalize scan after = later
  cases first with
  | error failure => simp [Bind.bind, Except.bind]
  | ok first =>
      cases later with
      | error failure => simp [Bind.bind, Except.bind, scanBelow, Except.map, Except.mapError]
      | ok later =>
          simp [Bind.bind, Except.bind, scanBelow, Except.map, Except.mapError, Pure.pure,
            Except.pure]

/-- A string without an end on the last of three lines, of which the second is a comment. -/
theorem scan_across_lineFeed_openString :
    let before := Utf8.encode "x = 1\n# \""
    let after := Utf8.encode "\"y"
    after ≠ [] ∧
      scan after = .error (LexicalFault.unterminatedString.onLine 1) ∧
      scan (before ++ 0x0A :: after) = .error (LexicalFault.unterminatedString.onLine 3) := by
  intro before after
  have bytes : after = [0x22, 0x79] := by
    dsimp only [after]
    cbv
  have nonempty : after ≠ [] := by simp [bytes]
  have first : scan (before ++ [0x0A]) =
      .ok [⟨.identifier, "x", 1⟩, ⟨.assign, "=", 1⟩, ⟨.intLiteral, "1", 1⟩, newline 1,
        newline 2] := by
    dsimp only [before]
    cbv
  have later : scan after = .error (LexicalFault.unterminatedString.onLine 1) := by
    have quote : Piece.front 0x22 [0x79] = (.openString, 1) := by cbv
    have stops : isSpace 0x22 = false := by decide
    simp [bytes, scan, scanLines, quote, stops]
  have feeds : before.count 0x0A = 1 := by
    dsimp only [before]
    cbv
  refine ⟨nonempty, later, ?_⟩
  rw [(scan_across_lineFeed before nonempty).2.2.2 _ _ first later, feeds]
  rfl

/-! ## Carriage returns -/

/-- The source with a carriage return in front of every line feed. -/
def withCarriageReturns (source : List UInt8) : List UInt8 :=
  source.flatMap fun byte => if byte = 0x0A then [0x0D, 0x0A] else [byte]

/-- A text without line feeds has no place where a carriage return would be put, so it stays the
    same. -/
theorem withCarriageReturns_text {text : List UInt8} (noFeed : 0x0A ∉ text) :
    withCarriageReturns text = text := by
  have kept (byte : UInt8) (member : byte ∈ text) :
      (if byte = 0x0A then [0x0D, 0x0A] else [byte]) = [byte] := by
    rw [if_neg]
    rintro rfl
    exact noFeed member
  rw [withCarriageReturns, List.flatMap_congr kept, List.flatMap_singleton']

/-- Up to the first line feed nothing changes. There the carriage return is put in, and the rest is
    treated alike. -/
theorem withCarriageReturns_line {text : List UInt8} (noFeed : 0x0A ∉ text)
    (rest : List UInt8) :
    withCarriageReturns (text ++ 0x0A :: rest) =
      text ++ ([0x0D, 0x0A] ++ withCarriageReturns rest) := by
  rw [withCarriageReturns, List.flatMap_append, List.flatMap_cons, if_pos rfl]
  exact congrArg (· ++ _) (withCarriageReturns_text noFeed)

/-- Line by line, the carriage returns take part in nothing but the line breaks. -/
theorem scanFrom_withCarriageReturns {bytes : List UInt8} (unpaired : ¬ [0x0D, 0x0A] <:+: bytes)
    (line : Nat) : scanFrom line (withCarriageReturns bytes) = scanFrom line bytes := by
  generalize counted : bytes.count 0x0A = count
  induction count generalizing bytes line with
  | zero => rw [withCarriageReturns_text (List.count_eq_zero.mp counted)]
  | succ count ih =>
      have feed : 0x0A ∈ bytes := List.count_pos_iff.mp (by omega)
      obtain ⟨text, rest, rfl, noFeed⟩ := List.eq_append_cons_of_mem feed
      have plain : text.getLast? ≠ some 0x0D := by
        intro last
        obtain ⟨before, rfl⟩ := List.getLast?_eq_some_iff.mp last
        exact unpaired ⟨before, rest, by simp⟩
      have laterUnpaired : ¬ [0x0D, 0x0A] <:+: rest := by
        intro paired
        exact unpaired (paired.trans
          ((List.suffix_cons 0x0A rest).trans (List.suffix_append text _)).isInfix)
      have laterCounted : rest.count 0x0A = count := by
        rw [List.count_append, List.count_cons_self, List.count_eq_zero.mpr noFeed] at counted
        omega
      rw [withCarriageReturns_line noFeed, scanFrom_line noFeed .carriageReturn,
        ih laterUnpaired (line + 1) laterCounted]
      exact (scanFrom_line noFeed (.lineFeed plain) line rest).symm

/-- Carriage returns put in front of all line feeds are never seen by scanning. The source must have
    none there before, or there would be two. -/
theorem scan_withCarriageReturns {source : List UInt8}
    (unpaired : ¬ [0x0D, 0x0A] <:+: source) :
    scan (withCarriageReturns source) = scan source := by
  cases source with
  | nil => rfl
  | cons byte rest =>
      have longer : withCarriageReturns (byte :: rest) ≠ [] := by
        rw [withCarriageReturns, List.flatMap_cons]
        split <;> simp
      rw [scan_eq_scanFrom longer, scan_eq_scanFrom (List.cons_ne_nil _ _),
        scanFrom_withCarriageReturns unpaired]

/-- All that compiling sees of a source are its tokens, so sources that are scanned alike have the
    same outcome. -/
theorem compile_of_scan {source other : List UInt8} (same : scan source = scan other) :
    (compile source).outcome = (compile other).outcome := by
  have reported (source : List UInt8) : (compile source).outcome =
      Traced.outcome (do
        let program ← parsed source
        program.analyze [] []
        emitted program) := by
    have split : compile source = (do
          let program ← parsed source
          program.analyze [] []
          emitted program) >>= fun text => do
        Traced.report (.compiled source.length text.utf8ByteSize)
        return text := by
      simp only [compile, bind_assoc]
    rw [split, Traced.outcome_report]
  have parsedAlike : parsed source = parsed other := by
    simp only [parsed, laidOut, scanned, same]
  rw [reported, reported, parsedAlike]

/-- A source without carriage returns in front of its line feeds and the same source with
    them have the same tokens, or the same fault, and they compile to the same Go file or
    fail with the same diagnostic. -/
theorem carriageReturns_unseen {source : List UInt8} (unpaired : ¬ [0x0D, 0x0A] <:+: source) :
    scan (withCarriageReturns source) = scan source ∧
      (compile (withCarriageReturns source)).outcome = (compile source).outcome :=
  have scanned := scan_withCarriageReturns unpaired
  ⟨scanned, compile_of_scan scanned⟩

/-- A carriage return at the start of a line stays what it is: an illegal byte. -/
theorem carriageReturns_unseen_lone :
    let source := Utf8.encode "x\n\ry"
    ¬ [0x0D, 0x0A] <:+: source ∧
      withCarriageReturns source = Utf8.encode "x\r\n\ry" ∧
      scan (Utf8.encode "x\r\n\ry") =
        .ok [⟨.identifier, "x", 1⟩, newline 1, ⟨.illegal, "\r", 2⟩, ⟨.identifier, "y", 2⟩] ∧
      (compile (Utf8.encode "x\r\n\ry")).outcome = (compile source).outcome := by
  intro source
  have bytes : source = [0x78, 0x0A, 0x0D, 0x79] := by
    dsimp only [source]
    cbv
  have unpaired : ¬ [0x0D, 0x0A] <:+: source := by
    rw [bytes]
    decide
  have returned : withCarriageReturns source = Utf8.encode "x\r\n\ry" := by
    dsimp only [source]
    cbv
  have scanned : scan source =
      .ok [⟨.identifier, "x", 1⟩, newline 1, ⟨.illegal, "\r", 2⟩, ⟨.identifier, "y", 2⟩] := by
    dsimp only [source]
    cbv
  obtain ⟨sameTokens, sameOutcome⟩ := carriageReturns_unseen unpaired
  rw [returned] at sameTokens sameOutcome
  exact ⟨unpaired, returned, sameTokens.trans scanned, sameOutcome⟩

end Offside
