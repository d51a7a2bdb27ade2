import Offside.Proofs.Go.Form
import Offside.Proofs.Source.Compilation
import Offside.Proofs.Syntax.Congruence
import Offside.Proofs.Typing.Agreement

/-!
# Compiling side by side

From layout on, the phases treat matching tokens alike. Parsing makes matching trees of
them, static analysis finds the same fault in both or none, and a Go file shows nothing
of a tree but the kinds and texts of its leaves. So two sources whose tokens match after
layout have the same Go file, or fail for the same reason on matching lines.
-/

namespace Offside

open Grammar

variable {matching : Matching}

/-- Matching tokens have the same kind and the same text, so they are spelled alike in Go. The line
    of a token does not show there. -/
theorem Matching.spelledAlike (matching : Matching) : SpelledAlike matching.token := by
  intro token other matched
  simp only [Go.spelling, Go.spelling?, matching.same_kind matched, matching.same_lexeme matched]

/-- Matching programs that tokens stand for have one Go file. Every leaf of such a program has a
    spelling, so neither of them fails to be emitted. -/
theorem emitted_agrees {tokens others : List Token} {program other : Program}
    (derived : ProgramOf tokens program) (otherDerived : ProgramOf others other)
    (matched : program.Matches matching other) (failures : Failure → Failure → Prop) :
    Traced.Agree failures Eq (emitted program) (emitted other) := by
  unfold emitted
  rw [emit_rows derived, emit_rows otherDerived, matched.rows_eq matching.spelledAlike]
  exact Traced.agree_bind (Traced.agree_pure rfl) fun text _ same =>
    Traced.agree_bind (Traced.agree_report _ _) fun _ _ _ => Traced.agree_pure same

/-- The tokens match after layout, and so do the lines on which they end. -/
def Matching.LaidOutAlike (matching : Matching) (tokens others : List Token) : Prop :=
  matching.Loose tokens others ∧ matching.line (Token.lastLine tokens) (Token.lastLine others)

/-- Two sources that are laid out alike compile alike. The phases are gone through in order, and
    what may differ in a failure is given by what may differ in one of parsing and one of static
    analysis. -/
theorem compile_agrees {source other : List UInt8} {failures : Failure → Failure → Prop}
    (laid : Traced.Agree failures matching.LaidOutAlike (laidOut source) (laidOut other))
    (misread : ∀ {failure otherFailure},
      Reader.BlamedAlike matching ["parse", "program"] failure otherFailure →
        failures failure otherFailure)
    (mistyped : ∀ {failure otherFailure},
      Check.FaultedInside matching ["analyze"] failure otherFailure →
        failures failure otherFailure) :
    Traced.Agree failures Eq (compile source) (compile other) := by
  have parsing : Traced.Agree failures
      (fun program otherProgram => program.Matches matching otherProgram ∧
        (∃ tokens, ProgramOf tokens program) ∧ ∃ tokens, ProgramOf tokens otherProgram)
      (parsed source) (parsed other) := by
    refine Traced.agree_bind laid fun tokens others tokensAlike => ?_
    refine ((parse_agrees tokensAlike.1 tokensAlike.2).mono misread id).strengthen ?_ ?_
    · intro events program after run
      exact ⟨tokens, (parse_run_iff tokens events program).mp ⟨after, run⟩⟩
    · intro events program after run
      exact ⟨others, (parse_run_iff others events program).mp ⟨after, run⟩⟩
  refine Traced.agree_bind parsing fun program otherProgram programs => ?_
  obtain ⟨matched, ⟨tokens, derived⟩, others, otherDerived⟩ := programs
  refine Traced.agree_bind ((analyze_agrees matched).mono mistyped id) fun _ _ _ => ?_
  refine Traced.agree_bind (emitted_agrees derived otherDerived matched failures)
    fun text _ same => ?_
  exact Traced.agree_bind (Traced.agree_report _ _) fun _ _ _ => Traced.agree_pure same

end Offside
