import Offside.Proofs.Syntax.Form

/-!
# Matching tokens and trees

Two token lists can be read alike without being equal. A matching says which tokens
and which line numbers take the place of one another; matching tokens have one kind
and one text, so no reader can tell them apart except by their lines.

Line breaks are matched as a group: where one list has line breaks, the other has line
breaks too, but not necessarily as many. That is what `Matching.Stretched` says, and
`Matching.Loose` is the same before the line breaks at the front have been read.

Trees match if they have the same form and matching leaves.
-/

namespace Offside

open Grammar

/-- Which tokens, line breaks apart, and which line numbers take the place of one
    another. -/
structure Matching where
  token : Token → Token → Prop
  line : Nat → Nat → Prop
  same_kind : ∀ {first second}, token first second → first.kind = second.kind
  same_lexeme : ∀ {first second}, token first second → first.lexeme = second.lexeme
  same_line : ∀ {first second}, token first second → line first.line second.line

/-! ## Token lists -/

/-- The tokens without the line breaks at their front. -/
def skipBreaks (tokens : List Token) : List Token :=
  tokens.dropWhile fun token => token.kind == .newline

/-- A line break at the front is skipped, and skipping goes on behind it. -/
theorem skipBreaks_break {token : Token} (isBreak : token.kind = .newline) (rest : List Token) :
    skipBreaks (token :: rest) = skipBreaks rest := by
  simp [skipBreaks, isBreak]

/-- Skipping stops at a token that is no line break and leaves it in front. -/
theorem skipBreaks_cons {token : Token} (noBreak : token.kind ≠ .newline) (rest : List Token) :
    skipBreaks (token :: rest) = token :: rest := by
  simp [skipBreaks, noBreak]

/-- Where line breaks have been skipped, there is none to skip again. -/
theorem skipBreaks_skipBreaks (tokens : List Token) :
    skipBreaks (skipBreaks tokens) = skipBreaks tokens := by
  induction tokens with
  | nil => rfl
  | cons token rest ih =>
      by_cases isBreak : token.kind = .newline
      · rw [skipBreaks_break isBreak, ih]
      · rw [skipBreaks_cons isBreak, skipBreaks_cons isBreak]

/-- Skipping never leaves more tokens than there were, so bounds that were large enough stay so. -/
theorem length_skipBreaks_le (tokens : List Token) : (skipBreaks tokens).length ≤ tokens.length :=
  (List.dropWhile_sublist _).length_le

namespace Matching

variable (matching : Matching)

/-- The lists have matching tokens in the same order, with line breaks at the same
    places, where there may be more of them in one list than in the other. -/
inductive Stretched : List Token → List Token → Prop where
  | nil : Stretched [] []
  | token {token other : Token} {rest others : List Token}
      (matched : matching.token token other) (noBreak : token.kind ≠ .newline)
      (later : Stretched rest others) :
      Stretched (token :: rest) (other :: others)
  | lineBreak {token other : Token} {rest others : List Token}
      (isBreak : token.kind = .newline) (otherBreak : other.kind = .newline)
      (lines : matching.line token.line other.line)
      (later : Stretched (skipBreaks rest) (skipBreaks others)) :
      Stretched (token :: rest) (other :: others)

/-- The lists are stretched apart from line breaks at their fronts. -/
def Loose (tokens others : List Token) : Prop :=
  matching.Stretched (skipBreaks tokens) (skipBreaks others)

variable {matching}

/-- Lists that match one by one match behind their line breaks as well. -/
theorem Stretched.loose {tokens others : List Token}
    (stretched : matching.Stretched tokens others) : matching.Loose tokens others := by
  cases stretched with
  | nil => exact .nil
  | token matched noBreak later =>
      have otherNoBreak := matching.same_kind matched ▸ noBreak
      rw [Loose, skipBreaks_cons noBreak, skipBreaks_cons otherNoBreak]
      exact .token matched noBreak later
  | lineBreak isBreak otherBreak lines later =>
      rwa [Loose, skipBreaks_break isBreak, skipBreaks_break otherBreak]

/-- Tokens all of which match themselves are stretched by nothing, line breaks included. The
    induction is on the tokens. -/
theorem stretched_self {tokens : List Token}
    (matched : ∀ token ∈ tokens, token.kind ≠ .newline → matching.token token token)
    (lines : ∀ token ∈ tokens, matching.line token.line token.line) :
    matching.Stretched tokens tokens := by
  induction tokens with
  | nil => exact .nil
  | cons token rest ih =>
      rw [List.forall_mem_cons] at matched lines
      have later := ih matched.2 lines.2
      by_cases isBreak : token.kind = .newline
      · exact .lineBreak isBreak isBreak lines.1 later.loose
      · exact .token (matched.1 isBreak) isBreak later

/-- What comes first in two stretched lists. -/
inductive Fronts : Option Token → Option Token → Prop where
  | none : Fronts none none
  | token {token other : Token} (matched : matching.token token other) :
      Fronts (some token) (some other)
  | lineBreak {token other : Token} (isBreak : token.kind = .newline)
      (otherBreak : other.kind = .newline) (lines : matching.line token.line other.line) :
      Fronts (some token) (some other)

/-- What comes first in two stretched lists are matching tokens or line breaks, or both lists are
    empty. -/
theorem Stretched.fronts {tokens others : List Token}
    (stretched : matching.Stretched tokens others) :
    matching.Fronts tokens.head? others.head? := by
  cases stretched with
  | nil => exact .none
  | token matched noBreak later => exact .token matched
  | lineBreak isBreak otherBreak lines later => exact .lineBreak isBreak otherBreak lines

/-- What comes first in two stretched lists is of one kind, if anything does. -/
theorem Fronts.same_kind {first second : Option Token} (fronts : matching.Fronts first second) :
    first.map Token.kind = second.map Token.kind := by
  cases fronts with
  | none => rfl
  | token matched => exact congrArg some (matching.same_kind matched)
  | lineBreak isBreak otherBreak lines => exact congrArg some (isBreak.trans otherBreak.symm)

/-- The line of what comes first; at the end, a line that stands for it. -/
theorem Fronts.same_line {first second : Option Token} (fronts : matching.Fronts first second)
    {last otherLast : Nat} (lasts : matching.line last otherLast) :
    matching.line ((first.map Token.line).getD last) ((second.map Token.line).getD otherLast) := by
  cases fronts with
  | none => exact lasts
  | token matched => exact matching.same_line matched
  | lineBreak isBreak otherBreak lines => exact lines

end Matching

/-! ## Trees -/

variable (matching : Matching)

/-- Placeholders that match name the same function. -/
def Matching.Placed (index line otherIndex otherLine : Nat) : Prop :=
  index = otherIndex ∧ matching.line line otherLine

abbrev Expression.Matches (expression other : Expression) : Prop :=
  expression.Related matching.token other

abbrev Comparison.Matches (comparison other : Comparison) : Prop :=
  comparison.Related matching.token other

abbrev Value.Matches (value other : Value) : Prop :=
  value.Related matching.token other

abbrev Parameter.Matches (parameter other : Parameter) : Prop :=
  parameter.Related matching.token other

abbrev Grammar.Phrase.Matches (phrase other : Phrase) : Prop :=
  phrase.Related matching.token matching.Placed matching.line other

abbrev Definition.Matches (definition other : Definition) : Prop :=
  definition.Related matching.token matching.Placed matching.line other

abbrev Program.Matches (program other : Program) : Prop :=
  program.Related matching.token matching.Placed matching.line other

end Offside
