import Offside.Compile
import Offside.Proofs.Syntax.Completeness

/-!
# The phases up to the syntax tree

A source has a program exactly when it is scanned, the tokens are laid out, and
what comes out stands for the program. Reports of the phases do not influence one
another.
-/

namespace Offside

open Grammar

/-- The program of a source, said phase by phase: there is one exactly if scanning, layout and
    parsing succeed one after another. -/
theorem parsed_ok_iff (source : List UInt8) (program : Program) :
    (parsed source).outcome = .ok program ↔
      ∃ tokens layout, Token.scan source = .ok tokens ∧
        Layout.ofTokens tokens = .ok layout ∧ ProgramOf layout.tokens program := by
  rw [Traced.outcome_ok_iff]
  simp only [parsed, laidOut, scanned, Traced.bind_ok_iff, Traced.lift_ok_iff]
  constructor
  · rintro ⟨after, laid, reported, ⟨tokens, _, ⟨scannedTokens, _, ⟨isScanned, _⟩, _, _, _, sameTokens⟩,
      layout, _, ⟨isLaid, _⟩, _, _, _, sameLaid⟩, run⟩
    cases sameTokens
    cases sameLaid
    exact ⟨tokens, layout, isScanned, isLaid, (parse_run_iff _ _ program).mp ⟨after, run⟩⟩
  · rintro ⟨tokens, layout, isScanned, isLaid, derived⟩
    obtain ⟨after, run⟩ := (parse_run_iff layout.tokens _ program).mpr derived
    exact ⟨after, layout.tokens, _, ⟨tokens, _, ⟨tokens, _, ⟨isScanned, rfl⟩, (), _, rfl, rfl⟩,
      layout, _, ⟨isLaid, rfl⟩, (), _, rfl, rfl⟩, run⟩

/-- If each phase makes something of what the phase before it has made, the source has the program
    at the end. -/
theorem parsed_of_phases {source : List UInt8} {tokens : List Token} {layout : Layout}
    {program : Program} (scanned : Token.scan source = .ok tokens)
    (laidOut : Layout.ofTokens tokens = .ok layout)
    (isParsed : (Program.parse layout.tokens).outcome = .ok program) :
    (parsed source).outcome = .ok program := by
  obtain ⟨after, run⟩ := (Traced.outcome_ok_iff _ _).mp isParsed
  exact (parsed_ok_iff source program).mpr
    ⟨tokens, layout, scanned, laidOut, (parse_run_iff _ #[] program).mp ⟨after, run⟩⟩

end Offside
