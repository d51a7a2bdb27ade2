import Offside.Proofs.Go.Rows
import Offside.Proofs.Source.Phases
import Offside.Proofs.Syntax.Blame
import Offside.Proofs.Text.Encoding
import Offside.Proofs.Typing.Walk

/-!
# What keeps a source from compiling

Every phase blames its own kind of fault: scanning a lexical one, layout and
parsing one of syntax, static analysis one of its rules. Emission is never the
phase that fails, because it is only reached by programs that were read from
tokens, and all of these can be emitted. So a source compiles exactly when it gets
through the four phases before.
-/

namespace Offside

open Grammar

/-- Scanning fails with a lexical fault, by induction along the pieces of a source: only an open
    string and a number without a last digit end it early. -/
theorem scanLines_lexical (line : Nat) (bytes : List UInt8) {failure : Failure}
    (failed : Token.scanLines line bytes = .error failure) :
    ∃ diagnostic, failure = .lexical diagnostic := by
  have before {first : Except Failure (List Token)} {next : List Token → List Token}
      (earlier : first = .error failure → ∃ diagnostic, failure = .lexical diagnostic)
      (stopped : (do return next (← first)) = Except.error failure) :
      ∃ diagnostic, failure = .lexical diagnostic := by
    cases first with
    | ok later => cases stopped
    | error other =>
        cases stopped
        exact earlier rfl
  fun_induction Token.scanLines line bytes with
  | case1 => cases failed
  | case2 line byte rest unread piece ih => exact ih failed
  | case3 line byte rest unread piece ih => exact before ih failed
  | case4 line byte rest unread text kind piece ih => exact before ih failed
  | case5 line byte rest piece =>
      cases failed
      exact ⟨_, rfl⟩
  | case6 line byte rest text piece =>
      cases failed
      exact ⟨_, rfl⟩

/-- The scan of a whole source fails with lexical faults only. An empty source has a lexical fault
    of its own. -/
theorem scan_lexical {source : List UInt8} {failure : Failure}
    (failed : Token.scan source = .error failure) :
    ∃ diagnostic, failure = .lexical diagnostic := by
  unfold Token.scan at failed
  split at failed
  · cases failed
    exact ⟨_, rfl⟩
  · cases scanned : Token.scanLines 1 (source.dropWhile isSpace) with
    | ok later =>
        rw [scanned] at failed
        cases failed
    | error other =>
        rw [scanned] at failed
        cases failed
        exact scanLines_lexical _ _ scanned

/-- Layout fails with a fault of syntax, although its trail names a phase of its own. -/
theorem ofLines_parse {level : Nat} {lines : List Line} {failure : Failure}
    (failed : Layout.ofLines level lines = .error failure) :
    ∃ diagnostic, failure = .parse diagnostic := by
  induction lines generalizing level with
  | nil => cases failed
  | cons line lines ih =>
      unfold Layout.ofLines at failed
      split at failed
      · cases later : Layout.ofLines level lines with
        | ok layout =>
            rw [later] at failed
            cases failed
        | error other =>
            rw [later] at failed
            cases failed
            exact ih later
      · split at failed
        · cases failed
          exact ⟨_, rfl⟩
        · cases later : Layout.ofLines line.level lines with
          | ok layout =>
              rw [later] at failed
              cases failed
          | error other =>
              rw [later] at failed
              cases failed
              exact ih later

/-- The same for whole token lists: closing the blocks at the end cannot fail. -/
theorem ofTokens_parse {tokens : List Token} {failure : Failure}
    (failed : Layout.ofTokens tokens = .error failure) :
    ∃ diagnostic, failure = .parse diagnostic := by
  unfold Layout.ofTokens at failed
  cases laidOut : Layout.ofLines 0 (Line.split tokens) with
  | ok layout =>
      rw [laidOut] at failed
      cases failed
  | error other =>
      rw [laidOut] at failed
      cases failed
      exact ofLines_parse laidOut

/-- The program of a source is missing because of a lexical fault or one of syntax. -/
theorem parsed_failure {source : List UInt8} {events after : Array Event} {failure : Failure}
    (failed : parsed source events = .error failure after) :
    ∃ diagnostic, failure = .lexical diagnostic ∨ failure = .parse diagnostic := by
  simp only [parsed, laidOut, scanned, Traced.bind_error_iff, Traced.lift_error_iff] at failed
  rcases failed with ((⟨notScanned, -⟩ | ⟨_, _, _, impossible | ⟨_, _, _, impossible⟩⟩) |
      ⟨_, _, _, ⟨notLaidOut, -⟩ | ⟨_, _, _, impossible | ⟨_, _, _, impossible⟩⟩⟩) |
    ⟨_, _, _, notParsed⟩
  · obtain ⟨diagnostic, rfl⟩ := scan_lexical notScanned
    exact ⟨diagnostic, .inl rfl⟩
  · cases impossible
  · cases impossible
  · obtain ⟨diagnostic, rfl⟩ := ofTokens_parse notLaidOut
    exact ⟨diagnostic, .inr rfl⟩
  · cases impossible
  · cases impossible
  · obtain ⟨inner, line, fault, rfl⟩ := parse_blames notParsed
    exact ⟨_, .inr rfl⟩

/-- Static analysis of a program that tokens stand for has one outcome, whatever was
    reported before it: success, or a rule that is broken. -/
theorem analyze_run {tokens : List Token} {program : Program}
    (derived : ProgramOf tokens program) (bindings : List Binding)
    (signatures : List Signature) :
    (∀ events, ∃ after, program.analyze bindings signatures events = .ok () after) ∨
      ∃ rule diagnostic, ∀ events, ∃ after,
        program.analyze bindings signatures events = .error (.analysis rule diagnostic) after := by
  have enough := program.length_le_definitionBound
  obtain ⟨outcome, reported, -, run, ends⟩ :=
    analysis_marks derived bindings signatures enough enough
  cases outcome with
  | ok value => exact .inl fun events => ⟨_, run events⟩
  | error failure =>
      obtain ⟨inner, line, fault, -, rfl⟩ := ends
      exact .inr ⟨_, _, fun events => ⟨_, run events⟩⟩

/-- A source without a program is not compiled, for the same reason, and this is no fault
    of emission. -/
theorem compile_failure {source : List UInt8} {failure : Failure}
    (isParsed : (parsed source).outcome = .error failure) :
    (compile source).outcome = .error failure ∧ ∀ diagnostic, failure ≠ .emission diagnostic := by
  obtain ⟨after, failed⟩ := (Traced.outcome_error_iff _ _).mp isParsed
  constructor
  · rw [Traced.outcome_error_iff]
    simp only [compile, Traced.bind_error_iff]
    exact ⟨after, .inl failed⟩
  · rintro diagnostic rfl
    obtain ⟨_, impossible | impossible⟩ := parsed_failure failed
    · cases impossible
    · cases impossible

/-- A source with a program that static analysis accepts is emitted, and nothing that
    was reported on the way has an influence. -/
theorem compile_run {source : List UInt8} {program : Program}
    (isParsed : (parsed source).outcome = .ok program) :
    ((program.analyze [] []).outcome = .ok () ∧
        (compile source).outcome =
          .ok (Go.Line.renderAll (program.rows.map Go.Row.line))) ∨
      ∃ rule diagnostic, (program.analyze [] []).outcome = .error (.analysis rule diagnostic) ∧
        (compile source).outcome = .error (.analysis rule diagnostic) := by
  obtain ⟨parsing, run⟩ := (Traced.outcome_ok_iff _ _).mp isParsed
  obtain ⟨tokens, layout, -, -, derived⟩ := (parsed_ok_iff source program).mp isParsed
  rcases analyze_run derived [] [] with accepted | ⟨rule, diagnostic, rejected⟩
  · obtain ⟨checking, checked⟩ := accepted parsing
    refine .inl ⟨(Traced.outcome_ok_iff _ _).mpr (accepted #[]), ?_⟩
    rw [Traced.outcome_ok_iff]
    simp only [compile, emitted, Traced.bind_ok_iff, Traced.lift_ok_iff]
    exact ⟨_, program, parsing, run, (), checking, checked, _, _,
      ⟨_, checking, ⟨emit_rows derived, rfl⟩, (), _, rfl, rfl⟩, (), _, rfl, rfl⟩
  · obtain ⟨checking, checked⟩ := rejected parsing
    refine .inr ⟨rule, diagnostic, (Traced.outcome_error_iff _ _).mpr (rejected #[]), ?_⟩
    rw [Traced.outcome_error_iff]
    simp only [compile, Traced.bind_error_iff]
    exact ⟨checking, .inr ⟨program, parsing, run, .inl checked⟩⟩

/-- Every program that is parsed can be emitted. So compiling never ends in a fault of
    emission, and a source compiles exactly when scanning, layout, parsing and static
    analysis of it succeed. -/
theorem parsed_emits :
    (∀ tokens program, (Program.parse tokens).outcome = .ok program →
      ∃ text, Go.emit program = .ok text) ∧
    ∀ source : List UInt8,
      (∀ diagnostic, (compile source).outcome ≠ .error (.emission diagnostic)) ∧
      ((∃ text, (compile source).outcome = .ok text) ↔
        ∃ tokens layout program, Token.scan source = .ok tokens ∧
          Layout.ofTokens tokens = .ok layout ∧
          (Program.parse layout.tokens).outcome = .ok program ∧
          (program.analyze [] []).outcome = .ok ()) := by
  refine ⟨?_, fun source => ?_⟩
  · intro tokens program isParsed
    obtain ⟨after, run⟩ := (Traced.outcome_ok_iff _ _).mp isParsed
    exact ⟨_, emit_rows ((parse_run_iff tokens #[] program).mp ⟨after, run⟩)⟩
  cases isParsed : (parsed source).outcome with
  | error failure =>
      obtain ⟨stopped, noEmission⟩ := compile_failure isParsed
      rw [stopped]
      refine ⟨?_, fun ⟨text, impossible⟩ => (nomatch impossible), ?_⟩
      · rintro diagnostic ⟨⟩
        exact noEmission diagnostic rfl
      · rintro ⟨tokens, layout, program, scanned, laidOut, isProgram, -⟩
        have missing := parsed_of_phases scanned laidOut isProgram
        rw [isParsed] at missing
        cases missing
  | ok program =>
      obtain ⟨tokens, layout, scanned, laidOut, derived⟩ :=
        (parsed_ok_iff source program).mp isParsed
      have isProgram : (Program.parse layout.tokens).outcome = .ok program :=
        (Traced.outcome_ok_iff _ _).mpr ((parse_run_iff _ _ _).mpr derived)
      rcases compile_run isParsed with ⟨accepted, compiled⟩ | ⟨rule, diagnostic, rejected, failed⟩
      · rw [compiled]
        refine ⟨fun diagnostic impossible => (nomatch impossible), ?_⟩
        exact ⟨fun _ => ⟨tokens, layout, program, scanned, laidOut, isProgram, accepted⟩,
          fun _ => ⟨_, rfl⟩⟩
      · rw [failed]
        refine ⟨fun diagnostic impossible => (nomatch impossible),
          fun ⟨text, impossible⟩ => (nomatch impossible), ?_⟩
        rintro ⟨otherTokens, otherLayout, other, otherScanned, otherLaidOut, otherParsed, accepted⟩
        have same := (parsed_of_phases otherScanned otherLaidOut otherParsed).symm.trans isParsed
        cases same
        rw [rejected] at accepted
        cases accepted

/-- A loop over a truth value, which is a leaf that is spelled differently in Go. -/
theorem parsed_emits_loop :
    let word (kind : Kind) (lexeme : String) (line : Nat) : Token := ⟨kind, lexeme, line⟩
    let source := Utf8.encode "import GoType\nwhile True:\n    print(1)\n"
    let tokens : List Token :=
      [word .importWord "import" 1, word .identifier "GoType" 1, .newline 1,
        word .whileWord "while" 2, word .boolLiteral "True" 2, word .colon ":" 2, .newline 2,
        .indent 3, word .print "print" 3, word .leftParen "(" 3, word .intLiteral "1" 3,
        word .rightParen ")" 3, .newline 3]
    let program : Program :=
      ⟨⟨word .identifier "GoType" 1, none, 1⟩,
        [.whileLoop (word .whileWord "while" 2) ⟨⟨word .boolLiteral "True" 2, none⟩, none⟩
          ⟨2, [.call (word .print "print" 3) [.terminal (word .intLiteral "1" 3)]]⟩], []⟩
    Token.scan source = .ok tokens ∧ (program.analyze [] []).outcome = .ok () ∧
      (∃ text, Go.emit program = .ok text) ∧ ∃ text, (compile source).outcome = .ok text := by
  intro word source tokens program
  have scanned : Token.scan source = .ok tokens := by
    dsimp only [source, tokens, word]
    cbv
  obtain ⟨layout, laidOut⟩ : ∃ layout, Layout.ofTokens tokens = .ok layout := ⟨_, rfl⟩
  have isParsed : (Program.parse layout.tokens).outcome = .ok program := by
    cases laidOut
    dsimp only [tokens, program, word]
    cbv
  have accepted : (program.analyze [] []).outcome = .ok () := by
    dsimp only [program, word]
    cbv
  exact ⟨scanned, accepted, parsed_emits.1 layout.tokens program isParsed,
    (parsed_emits.2 source).2.mpr ⟨tokens, layout, program, scanned, laidOut, isParsed, accepted⟩⟩

end Offside
