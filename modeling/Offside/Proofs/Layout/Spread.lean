import Offside.Layout
import Offside.Proofs.Syntax.Matching

/-!
# Lines with blank lines among them

A line without content has no say in the block structure. So layout gives matching tokens
for two lists of lines, or rejects both for the same reason, if one comes from the other
by putting lines without content between the lines and by changing the indentation of
lines that have no content.
-/

namespace Offside

/-- Tokens that are the same apart from their lines. -/
def Matching.anyLine : Matching where
  token token other := token.kind = other.kind ∧ token.lexeme = other.lexeme
  line _ _ := True
  same_kind matched := matched.1
  same_lexeme matched := matched.2
  same_line _ := trivial

/-- The lines have the same content and, if there is any, one level. -/
structure Line.Like (line other : Line) : Prop where
  content : List.Forall₂ Matching.anyLine.token line.content other.content
  level : line.content ≠ [] → line.level = other.level
  inline : ∀ token ∈ line.content, token.kind ≠ .newline

/-- The line is ended by a line break. -/
def Line.Ended (line : Line) : Prop :=
  ∃ ending, line.ending = some ending ∧ ending.kind = .newline

/-- The second list has the lines of the first, with further lines among them that have no
    content. -/
inductive Spread : List Line → List Line → Prop where
  | last {line other : Line} (like : line.Like other) (unended : line.ending = none)
      (otherUnended : other.ending = none) : Spread [line] [other]
  | line {line other : Line} {lines others : List Line} (like : line.Like other)
      (ended : line.Ended) (otherEnded : other.Ended) (later : Spread lines others) :
      Spread (line :: lines) (other :: others)
  | blank {other : Line} {lines others : List Line} (empty : other.content = [])
      (ended : other.Ended) (later : Spread lines others) : Spread lines (other :: others)

/-! ## Layout -/

/-- Both layouts fail with the same fault, or both succeed with one level and with related
    tokens, whatever matching tokens follow them. -/
inductive LaidAlike (related : List Token → List Token → Prop) :
    Except Failure Layout → Except Failure Layout → Prop where
  | ok {layout other : Layout} (levels : layout.level = other.level)
      (tokens : ∀ {tail otherTail}, Matching.anyLine.Stretched tail otherTail →
        related (layout.tokens ++ tail) (other.tokens ++ otherTail)) :
      LaidAlike related (.ok layout) (.ok other)
  | error (fault : LayoutFault) (line otherLine : Nat) :
      LaidAlike related (.error (fault.onLine line)) (.error (fault.onLine otherLine))

namespace Layout

/-- What follows the content of a line: its line break and the lines after it. -/
def after (line : Line) (level : Nat) (lines : List Line) : Except Failure Layout := do
  let later ← ofLines level lines
  return { later with tokens := line.ending.toList ++ later.tokens }

/-- A line without content is passed over by layout: it keeps its line break, and the level stays
    the same. -/
theorem ofLines_blank {line : Line} (empty : line.content = []) (level : Nat)
    (lines : List Line) : ofLines level (line :: lines) = after line level lines := by
  rw [ofLines, empty]
  simp only [after, Line.unindented, empty, List.nil_append]

/-- A line with content is compared with the level before it. It is rejected if it skips a level,
    and otherwise closes as many blocks as it has levels less. -/
theorem ofLines_content {line : Line} {first : Token} {others : List Token}
    (content : line.content = first :: others) (level : Nat) (lines : List Line) :
    ofLines level (line :: lines) =
      if level + 1 < line.level then
        .error ((LayoutFault.unexpectedIndent line.level level).onLine first.line)
      else do
        let closing := List.replicate (level - line.level) (Token.closeBlock first.line)
        let later ← after line line.level lines
        return {
          later with
          tokens := closing ++ (line.content ++ later.tokens)
          opened := later.opened + if level < line.level then 1 else 0
        } := by
  rw [ofLines, content]
  simp only [after, Line.unindented, content, bind_assoc, pure_bind, List.append_assoc]

end Layout

namespace Matching

/-- Matching tokens that are no line breaks, in front of stretched lists, give stretched lists
    again. Only line breaks may be put in or left out. -/
theorem Stretched.append {matching : Matching} {tokens others rest otherRest : List Token}
    (matched : List.Forall₂ matching.token tokens others)
    (noBreak : ∀ token ∈ tokens, token.kind ≠ .newline)
    (later : matching.Stretched rest otherRest) :
    matching.Stretched (tokens ++ rest) (others ++ otherRest) := by
  induction matched with
  | nil => exact later
  | cons first _ ih =>
      rw [List.forall_mem_cons] at noBreak
      exact .token first noBreak.1 (ih noBreak.2)

/-- A line break may be put in front of the second list as well, where tokens match loosely. -/
theorem Loose.break_right {matching : Matching} {tokens others : List Token}
    (loose : matching.Loose tokens others) {token : Token} (isBreak : token.kind = .newline) :
    matching.Loose tokens (token :: others) := by
  rwa [Loose, skipBreaks_break isBreak]

/-- Block ends match wherever they stand, as long as they are as many on both sides. -/
theorem closing_stretched (count line otherLine : Nat) {rest otherRest : List Token}
    (later : anyLine.Stretched rest otherRest) :
    anyLine.Stretched (List.replicate count (Token.closeBlock line) ++ rest)
      (List.replicate count (Token.closeBlock otherLine) ++ otherRest) := by
  induction count with
  | zero => exact later
  | succ count ih => exact .token ⟨rfl, rfl⟩ (by simp [Token.closeBlock]) ih

end Matching

open Layout

/-- Two line breaks with lines behind them that are laid out alike. -/
theorem after_alike {line other : Line} {lines others : List Line} {level : Nat}
    (ended : line.Ended) (otherEnded : other.Ended)
    (later : LaidAlike Matching.anyLine.Loose (ofLines level lines) (ofLines level others)) :
    LaidAlike Matching.anyLine.Stretched (after line level lines) (after other level others) := by
  obtain ⟨ending, isEnding, isBreak⟩ := ended
  obtain ⟨otherEnding, otherIsEnding, otherBreak⟩ := otherEnded
  unfold after
  generalize ofLines level lines = outcome at later
  generalize ofLines level others = otherOutcome at later
  cases later with
  | error fault line otherLine => exact .error fault line otherLine
  | ok levels tokens =>
      refine .ok levels fun {tail otherTail} tails => ?_
      rw [isEnding, otherIsEnding]
      exact .lineBreak isBreak otherBreak trivial (tokens tails)

/-- Lines that are alike are laid out alike if what follows their contents is. -/
theorem ofLines_alike {line other : Line} {lines others : List Line} (like : line.Like other)
    (afters : ∀ level, LaidAlike Matching.anyLine.Stretched (after line level lines)
      (after other level others)) (level : Nat) :
    LaidAlike Matching.anyLine.Loose (ofLines level (line :: lines))
      (ofLines level (other :: others)) := by
  obtain ⟨contents, levels, inline⟩ := like
  cases content : line.content with
  | nil =>
      rw [content] at contents
      rw [ofLines_blank content, ofLines_blank (List.forall₂_nil_left_iff.mp contents)]
      have alike := afters level
      generalize after line level lines = outcome at alike
      generalize after other level others = otherOutcome at alike
      cases alike with
      | error fault line otherLine => exact .error fault line otherLine
      | ok sameLevel tokens => exact .ok sameLevel fun tails => (tokens tails).loose
  | cons first rest =>
      rw [content] at contents
      obtain ⟨otherFirst, otherRest, firsts, rests, otherContent⟩ :=
        List.forall₂_cons_left_iff.mp contents
      rw [ofLines_content content, ofLines_content otherContent, ← levels (by simp [content])]
      by_cases tooDeep : level + 1 < line.level
      · rw [if_pos tooDeep, if_pos tooDeep]
        exact .error (.unexpectedIndent line.level level) first.line otherFirst.line
      · rw [if_neg tooDeep, if_neg tooDeep]
        have alike := afters line.level
        generalize after line line.level lines = outcome at alike
        generalize after other line.level others = otherOutcome at alike
        cases alike with
        | error fault line otherLine => exact .error fault line otherLine
        | ok sameLevel tokens =>
            refine .ok sameLevel fun {tail otherTail} tails => ?_
            simp only [content, otherContent, List.append_assoc]
            refine (Matching.closing_stretched _ _ _ ?_).loose
            exact .append (.cons firsts rests) (content ▸ inline) (tokens tails)

/-- Layout of lines and of the same lines with lines without content among them comes to matching
    ends. The induction is on how the second list has come from the first. -/
theorem ofLines_spread {lines others : List Line} (spread : Spread lines others) (level : Nat) :
    LaidAlike Matching.anyLine.Loose (ofLines level lines) (ofLines level others) := by
  induction spread generalizing level with
  | last like unended otherUnended =>
      refine ofLines_alike like (fun level => ?_) level
      simp only [after, unended, otherUnended, ofLines]
      exact .ok rfl fun tails => tails
  | line like ended otherEnded _ ih =>
      exact ofLines_alike like (fun level => after_alike ended otherEnded (ih level)) level
  | blank empty ended _ ih =>
      obtain ⟨ending, isEnding, isBreak⟩ := ended
      have alike := ih level
      rw [ofLines_blank empty]
      unfold after
      generalize ofLines level _ = outcome at alike
      generalize ofLines level _ = otherOutcome at alike ⊢
      cases alike with
      | error fault line otherLine => exact .error fault line otherLine
      | ok levels tokens =>
          refine .ok levels fun {tail otherTail} tails => ?_
          rw [isEnding]
          exact (tokens tails).break_right isBreak

/-- Layout of whole token lists, the ends of open blocks included. The lines of a failure may
    differ, since further lines have been put in before them. -/
theorem ofTokens_spread {tokens others : List Token}
    (spread : Spread (Line.split tokens) (Line.split others)) :
    (∃ layout other, ofTokens tokens = .ok layout ∧ ofTokens others = .ok other ∧
      Matching.anyLine.Loose layout.tokens other.tokens) ∨
    ∃ fault line otherLine, ofTokens tokens = .error (LayoutFault.onLine fault line) ∧
      ofTokens others = .error (LayoutFault.onLine fault otherLine) := by
  have alike := ofLines_spread spread 0
  simp only [ofTokens]
  generalize ofLines 0 (Line.split tokens) = outcome at alike
  generalize ofLines 0 (Line.split others) = otherOutcome at alike
  cases alike with
  | error fault line otherLine => exact .inr ⟨fault, line, otherLine, rfl, rfl⟩
  | ok levels matched =>
      refine .inl ⟨_, _, rfl, rfl, matched ?_⟩
      rw [levels]
      exact Matching.closing_stretched _ _ _ (.lineBreak rfl rfl trivial .nil)

end Offside
