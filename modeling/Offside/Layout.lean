import Offside.Diagnostic
import Offside.Token

/-!
# Layout

Layout turns indentation into explicit block ends. Tokens are taken line by
line: the level of a line is the number of its indentation tokens, and a line
without content has no say in the block structure. When the level drops, one
closing token for every level lost is placed right before the line's first
content token. A block opens where the grammar says so, so a rise needs no
token, but it may only be a rise by one.

All indentation tokens of a line count towards its level, wherever they stand.
-/

namespace Offside

/-- A line of tokens: what stands before its line break, and the line break. The
    last line has none. -/
structure Line where
  tokens : List Token
  ending : Option Token
  deriving DecidableEq, Repr

namespace Line

/-- Cut a token list after every line break. There is always a last line, which
    may be empty. -/
def split : List Token → List Line
  | [] => [⟨[], none⟩]
  | token :: rest =>
      if token.kind = .newline then ⟨[], some token⟩ :: split rest
      else
        match split rest with
        | [] => [⟨[token], none⟩]
        | line :: lines => ⟨token :: line.tokens, line.ending⟩ :: lines

/-- All tokens of a line, its line break included. -/
def all (line : Line) : List Token :=
  line.tokens ++ line.ending.toList

/-- There is always a last line. -/
theorem split_ne_nil (tokens : List Token) : split tokens ≠ [] := by
  cases tokens with
  | nil => simp [split]
  | cons token rest =>
      unfold split
      split
      · exact List.cons_ne_nil _ _
      · split <;> exact List.cons_ne_nil _ _

/-- Cutting a list of tokens into lines loses no token and keeps their order, line breaks
    included. -/
theorem flatMap_split (tokens : List Token) : (split tokens).flatMap all = tokens := by
  induction tokens with
  | nil => rfl
  | cons token rest ih =>
      unfold split
      split
      · simp [all, ih]
      · split
        · rename_i empty
          exact absurd empty (split_ne_nil rest)
        · rename_i line lines cut
          rw [cut] at ih
          simpa [all] using ih

/-- The number of indentation tokens. -/
def level (line : Line) : Nat :=
  line.tokens.countP (fun token => token.kind == .indent)

/-- The tokens that are not indentation. -/
def content (line : Line) : List Token :=
  line.tokens.filter (fun token => token.kind != .indent)

/-- A line as it appears after layout: its content and its line break. -/
def unindented (line : Line) : List Token :=
  line.content ++ line.ending.toList

end Line

/-- What keeps a token list from being laid out. -/
inductive LayoutFault where
  /-- A line starts more than one level deeper than the content line before
      it. -/
  | unexpectedIndent (level previous : Nat)
  deriving DecidableEq, Repr

namespace LayoutFault

/-- The wording of a fault. -/
def message : LayoutFault → String
  | unexpectedIndent level previous =>
      "unexpected indent: level " ++ toString level ++ " after level " ++ toString previous

/-- The fault reported at a line. -/
def onLine (fault : LayoutFault) (line : Nat) : Failure :=
  .parse ⟨["normalize"], line, fault.message⟩

end LayoutFault

/-- Lines after layout. -/
structure Layout where
  tokens : List Token
  /-- The level of the last content line: the blocks still open. -/
  level : Nat
  /-- How many content lines stand deeper than the one before them. -/
  opened : Nat
  deriving DecidableEq, Repr

namespace Layout

/-- Lay out `lines`, the content line before them having had level `level`. -/
def ofLines (level : Nat) : List Line → Except Failure Layout
  | [] => .ok ⟨[], level, 0⟩
  | line :: lines =>
      match line.content with
      | [] => do
          let later ← ofLines level lines
          return { later with tokens := line.unindented ++ later.tokens }
      | first :: _ =>
          if level + 1 < line.level then
            .error ((LayoutFault.unexpectedIndent line.level level).onLine first.line)
          else do
            let closing := List.replicate (level - line.level) (Token.closeBlock first.line)
            let later ← ofLines line.level lines
            return {
              later with
              tokens := closing ++ (line.unindented ++ later.tokens)
              opened := later.opened + if level < line.level then 1 else 0
            }

/-- Lay out a whole token list: close what is open at the end, and end the last
    line. -/
def ofTokens (tokens : List Token) : Except Failure Layout := do
  let layout ← ofLines 0 (Line.split tokens)
  let last := Token.lastLine tokens
  return {
    layout with
    tokens := layout.tokens ++
      (List.replicate layout.level (Token.closeBlock last) ++ [Token.newline last])
  }

end Layout

end Offside
