import Offside.Proofs.Layout.Balance
import Offside.Proofs.Source.Lines
import Offside.Proofs.Source.Phases
import Offside.Proofs.Source.Relayout
import Offside.Proofs.Typing.Prefixes

/-!
# Failures depend on the lines up to theirs

Scanning and layout take a source line by line, so two sources with the same first lines
have the same tokens for them, and all other tokens have greater line numbers. With this the
way from the first byte to a failure of static analysis is complete: the failure is settled
by the text up to the end of its line. What comes later may change anything else.
-/

namespace Offside

open Token

/-- The lines of scanned tokens are numbered upwards one by one, from the number that scanning
    starts with. -/
theorem numbered_scanFrom {number : Nat} {bytes : List UInt8} {tokens : List Token}
    (scanned : scanFrom number bytes = .ok tokens) : Numbered number (Line.split tokens) := by
  obtain ⟨later, scannedLater, same⟩ := except_bind_ok_iff.mp scanned
  cases same
  exact numbered_indentation bytes (numbered_scanLines scannedLater)

/-- The block ends put in front of a line are on that line but are no tokens of it, so they are late
    wherever it stands. -/
theorem late_closing (last level : Nat) (line : Line) : Late last (line.closing level) := by
  intro token member isInline
  unfold Line.closing at member
  split at member
  · cases member
  · rw [List.eq_of_mem_replicate member] at isInline
    exact absurd rfl isInline.2

/-- Lines with greater numbers are late, laid out at any level: neither their own tokens nor their
    block ends reach back. The induction is on the lines. -/
theorem laidAll_late {last number : Nat} (behind : last < number) {lines : List Line}
    (numbered : Numbered number lines) (level : Nat) : Late last (Line.laidAll level lines) := by
  induction lines generalizing number level with
  | nil => exact List.forall_mem_nil _
  | cons line lines ih =>
      have later := ih (Nat.lt_succ_of_lt behind) numbered.2.2.2 (line.levelAfter level)
      have content : Late last line.content := by
        intro token member _
        rwa [(numbered.1 token (List.mem_filter.mp member).1).2]
      have ending : Late last line.ending.toList := by
        intro token member _
        rwa [(numbered.2.1 token (Option.mem_toList.mp member)).2]
      have laid := late_append.mpr ⟨late_closing last level line, late_append.mpr ⟨content, ending⟩⟩
      exact late_append.mpr ⟨laid, later⟩

/-- Sources with the same whole lines at their front have tokens that part behind these,
    whatever late tokens are put at their ends. -/
theorem laidAll_fork {lines : List UInt8} (whole : WholeLines lines) {last number : Nat}
    (counted : number + lines.count 0x0A = last + 1) {rest otherRest : List UInt8}
    {tokens others tail otherTail : List Token}
    (scanned : scanFrom number (lines ++ rest) = .ok tokens)
    (otherScanned : scanFrom number (lines ++ otherRest) = .ok others) (late : Late last tail)
    (otherLate : Late last otherTail) (level : Nat) :
    Fork last (Line.laidAll level (Line.split tokens) ++ tail)
      (Line.laidAll level (Line.split others) ++ otherTail) := by
  induction whole generalizing number tokens others level with
  | nil =>
      have behind : last < number := Nat.lt_of_succ_le (Nat.le_of_eq counted.symm)
      refine ⟨[], _, _, rfl, rfl, by simp, ?_, ?_⟩
      · have later := laidAll_late behind (numbered_scanFrom scanned) level
        exact late_append.mpr ⟨later, late⟩
      · have later := laidAll_late behind (numbered_scanFrom otherScanned) level
        exact late_append.mpr ⟨later, otherLate⟩
  | line noFeed ends whole ih =>
      rw [ends.count noFeed] at counted
      rw [List.append_assoc, List.append_assoc] at scanned otherScanned
      obtain ⟨first, later, scannedFirst, scannedLater, rfl⟩ :=
        (scanFrom_line_ok_iff noFeed ends).mp scanned
      obtain ⟨otherFirst, otherLater, otherScannedFirst, otherScannedLater, rfl⟩ :=
        (scanFrom_line_ok_iff noFeed ends).mp otherScanned
      obtain rfl := Except.ok.inj (otherScannedFirst.symm.trans scannedFirst)
      have inline := scanFrom_inline noFeed scannedFirst
      have following := ih (by omega) scannedLater otherScannedLater
      rw [Line.split_line inline rfl, Line.split_line inline rfl, Line.laidAll, Line.laidAll,
        List.append_assoc, List.append_assoc]
      apply Fork.prepend (following _)
      simp [Line.laid, Line.unindented, Token.newline]

/-- The layouts of sources with the same lines at their front part behind these. -/
theorem layout_fork {before source other : List UInt8} (starts : before <+: source)
    (otherStarts : before <+: other) (ends : before.getLast? = some 0x0A)
    {tokens others : List Token} {layout otherLayout : Layout}
    (scanned : scan source = .ok tokens) (otherScanned : scan other = .ok others)
    (laidOut : Layout.ofTokens tokens = .ok layout)
    (otherLaidOut : Layout.ofTokens others = .ok otherLayout) :
    Fork (before.count 0x0A) layout.tokens otherLayout.tokens := by
  obtain ⟨rest, rfl⟩ := starts
  obtain ⟨otherRest, rfl⟩ := otherStarts
  have nonempty (rest : List UInt8) : before ++ rest ≠ [] := by
    intro empty
    rw [(List.append_eq_nil_iff.mp empty).1] at ends
    cases ends
  rw [scan_eq_scanFrom (nonempty _)] at scanned otherScanned
  obtain ⟨-, -, same⟩ := ofTokens_laid laidOut
  obtain ⟨-, -, otherSame⟩ := ofTokens_laid otherLaidOut
  have closing (count number : Nat) : Late (before.count 0x0A)
      (List.replicate count (Token.closeBlock number) ++ [Token.newline number]) := by
    refine late_append.mpr ⟨?_, List.forall_mem_singleton.mpr fun isInline => absurd rfl isInline.1⟩
    intro token member isInline
    rw [List.eq_of_mem_replicate member] at isInline
    exact absurd rfl isInline.2
  rw [same, otherSame]
  exact laidAll_fork (wholeLines_of_getLast? ends) (Nat.add_comm _ _) scanned otherScanned
    (closing _ _) (closing _ _) 0

/-- A failure of static analysis depends on nothing behind its line: if another source starts
    with the same text up to the end of that line, and there are programs for both, the
    analysis of the other program fails with the same rule, trail, line and message.

    The programs can differ in all that comes later. Their functions can, too, and so can the
    numbers of placeholders before the failure. -/
theorem analyze_failure_settled {source other before : List UInt8} {program otherProgram : Program}
    (isParsed : (parsed source).outcome = .ok program)
    (otherIsParsed : (parsed other).outcome = .ok otherProgram) {failure : Failure}
    (failed : (program.analyze [] []).outcome = .error failure) (starts : before <+: source)
    (otherStarts : before <+: other) (ends : before.getLast? = some 0x0A)
    (counted : before.count 0x0A = failure.diagnostic.line) :
    (otherProgram.analyze [] []).outcome = .error failure := by
  obtain ⟨tokens, layout, scanned, laidOut, derived⟩ := (parsed_ok_iff source program).mp isParsed
  obtain ⟨others, otherLayout, otherScanned, otherLaidOut, otherDerived⟩ :=
    (parsed_ok_iff other otherProgram).mp otherIsParsed
  have fork := layout_fork starts otherStarts ends scanned otherScanned laidOut otherLaidOut
  exact analyze_forked derived otherDerived fork [] [] failed (Nat.le_of_eq counted.symm)

/-- The source ends behind the failure. The other goes on with an `else`, with a function inside
    the first one, which takes its index, and with a call. -/
theorem analyze_failure_settled_nested :
    let word (kind : Kind) (lexeme : String) (line : Nat) : Token := ⟨kind, lexeme, line⟩
    let name (lexeme : String) (line : Nat) : Token := word .identifier lexeme line
    let failure := Failure.analysis .undeclaredReference
      ⟨["analyze", "function", "if", "call"], 4, (TypingFault.undeclaredVariable "b").message⟩
    let before := Utf8.encode "import GoType\ndef f(a: int):\n    if a:\n        print(b)\n"
    let later := Utf8.encode "    else:\n        def g():\n            print(a)\nf(1)\n"
    let program : Program :=
      ⟨⟨name "GoType" 1, none, 1⟩, [.hoisted 0 2],
        [⟨word .defWord "def" 2, name "f" 2, [⟨name "a" 2, name "int" 2⟩], none,
          ⟨2, [.ifChain [⟨word .ifWord "if" 3, ⟨⟨name "a" 3, none⟩, none⟩,
            ⟨3, [.call (word .print "print" 4) [.terminal (name "b" 4)]]⟩⟩] none]⟩⟩]⟩
    let otherProgram : Program :=
      ⟨⟨name "GoType" 1, none, 1⟩,
        [.hoisted 1 2, .call (name "f" 8) [.terminal (word .intLiteral "1" 8)]],
        [⟨word .defWord "def" 6, name "g" 6, [], none,
          ⟨6, [.call (word .print "print" 7) [.terminal (name "a" 7)]]⟩⟩,
        ⟨word .defWord "def" 2, name "f" 2, [⟨name "a" 2, name "int" 2⟩], none,
          ⟨2, [.ifChain [⟨word .ifWord "if" 3, ⟨⟨name "a" 3, none⟩, none⟩,
            ⟨3, [.call (word .print "print" 4) [.terminal (name "b" 4)]]⟩⟩]
              (some ⟨5, [.hoisted 0 6]⟩)]⟩⟩]⟩
    (parsed before).outcome = .ok program ∧
      (parsed (before ++ later)).outcome = .ok otherProgram ∧
        (program.analyze [] []).outcome = .error failure ∧
          (otherProgram.analyze [] []).outcome = .error failure := by
  intro word name failure before later program otherProgram
  let tokens : List Token :=
    [word .importWord "import" 1, name "GoType" 1, .newline 1,
      word .defWord "def" 2, name "f" 2, word .leftParen "(" 2, name "a" 2, word .colon ":" 2,
      name "int" 2, word .rightParen ")" 2, word .colon ":" 2, .newline 2,
      .indent 3, word .ifWord "if" 3, name "a" 3, word .colon ":" 3, .newline 3,
      .indent 4, .indent 4, word .print "print" 4, word .leftParen "(" 4, name "b" 4,
      word .rightParen ")" 4, .newline 4]
  let others : List Token :=
    tokens ++
      [.indent 5, word .elseWord "else" 5, word .colon ":" 5, .newline 5,
        .indent 6, .indent 6, word .defWord "def" 6, name "g" 6, word .leftParen "(" 6,
        word .rightParen ")" 6, word .colon ":" 6, .newline 6,
        .indent 7, .indent 7, .indent 7, word .print "print" 7, word .leftParen "(" 7, name "a" 7,
        word .rightParen ")" 7, .newline 7,
        name "f" 8, word .leftParen "(" 8, word .intLiteral "1" 8, word .rightParen ")" 8,
        .newline 8]
  have scanned : scan before = .ok tokens := by
    dsimp only [before, tokens, name, word]
    cbv
  have otherScanned : scan (before ++ later) = .ok others := by
    dsimp only [before, later, others, tokens, name, word]
    cbv
  obtain ⟨layout, laid⟩ : ∃ layout, Layout.ofTokens tokens = .ok layout := ⟨_, rfl⟩
  obtain ⟨otherLayout, otherLaid⟩ : ∃ layout, Layout.ofTokens others = .ok layout := ⟨_, rfl⟩
  have isProgram : (Program.parse layout.tokens).outcome = .ok program := by
    cases laid
    dsimp only [tokens, program, name, word]
    cbv
  have otherIsProgram : (Program.parse otherLayout.tokens).outcome = .ok otherProgram := by
    cases otherLaid
    dsimp only [others, tokens, otherProgram, name, word]
    cbv
  have failed : (program.analyze [] []).outcome = .error failure := rfl
  have isParsed := parsed_of_phases scanned laid isProgram
  have otherIsParsed := parsed_of_phases otherScanned otherLaid otherIsProgram
  have ends : before.getLast? = some 0x0A := rfl
  have counted : before.count 0x0A = failure.diagnostic.line := rfl
  have settled := analyze_failure_settled isParsed otherIsParsed failed (List.prefix_refl before)
    (List.prefix_append before later) ends counted
  exact ⟨isParsed, otherIsParsed, failed, settled⟩

end Offside
