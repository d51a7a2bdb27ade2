import Offside.Proofs.Layout.Rejection
import Offside.Proofs.Source.Relayout

/-!
# Layout in two passes

Layout takes tokens line by line, so it has the level of a line at hand when the content of the
line starts. The same can be done on the tokens as they come, in two passes. The first pass
writes down the level of each line that has content. The second pass puts the block ends in. It
counts the lines that it has left behind, and where the content of a line starts it looks up
what the first pass has written for that line.

Each pass has a line of its own and a flag of its own for whether that line has content, and
only the tokens keep the two in step. The second pass writes down what it looks up. It never
looks beyond the end of what is written, it never finds a line without a level, and the level
that it finds is the number of indentation tokens of the line.
-/

namespace Offside

/-! ## The first pass -/

/-- The first pass on its way. -/
structure Survey where
  /-- What is written for the lines that have ended: the level, if there was content. -/
  levels : List (Option Nat)
  /-- The indentation tokens of the current line. -/
  indents : Nat
  /-- Whether the current line has content. -/
  hasContent : Bool
  deriving DecidableEq, Repr

namespace Survey

/-- Nothing has been seen. -/
def start : Survey := ⟨[], 0, false⟩

variable (survey : Survey)

/-- What is written for the current line if it ends here. -/
def level? : Option Nat :=
  if survey.hasContent then some survey.indents else none

/-- One token further. -/
def step (token : Token) : Survey :=
  if token.kind = .newline then ⟨survey.levels ++ [survey.level?], 0, false⟩
  else if token.kind = .indent then { survey with indents := survey.indents + 1 }
  else { survey with hasContent := true }

/-- What is written at the end, where the last line ends without a line break. -/
def written : List (Option Nat) :=
  survey.levels ++ [survey.level?]

end Survey

/-- What the first pass writes: the level of each line, or nothing where there is no content. -/
def lineLevels (tokens : List Token) : List (Option Nat) :=
  (tokens.foldl Survey.step .start).written

/-! ## The second pass -/

/-- The second pass has looked up the level of a line. -/
structure Lookup where
  /-- The token with which the content of the line starts. -/
  first : Token
  /-- The number of the line, counted from zero. -/
  line : Nat
  /-- What stands there: nothing beyond the end of what is written, and no level for a line that
      the first pass found without content. -/
  found : Option (Option Nat)
  deriving DecidableEq, Repr

/-- Why the second pass stops before the last token. -/
inductive Stop where
  | fault (failure : Failure)
  /-- Nothing is written for the line. -/
  | unwritten
  deriving DecidableEq, Repr

/-- The second pass on its way. -/
structure Pass where
  /-- How many lines have ended. -/
  line : Nat
  /-- Whether the current line has content. -/
  hasContent : Bool
  /-- The level of the last line with content. -/
  level : Nat
  /-- How many content lines stand deeper than the one before them. -/
  opened : Nat
  /-- The line of the last token. -/
  lastLine : Nat
  output : List Token
  lookups : List Lookup
  deriving DecidableEq, Repr

/-- Nothing has been laid out. -/
def Pass.start : Pass := ⟨0, false, 0, 0, 1, [], []⟩

/-- At the end what is open is closed, and the last line ends. -/
def Pass.closed (pass : Pass) : Layout where
  tokens := pass.output ++
    (List.replicate pass.level (Token.closeBlock pass.lastLine) ++ [Token.newline pass.lastLine])
  level := pass.level
  opened := pass.opened

/-- Lays tokens out one by one. -/
abbrev Laying := EStateM Stop Pass

namespace Laying

/-- Put a token out. -/
def put (token : Token) : Laying Unit :=
  modify fun pass => { pass with output := pass.output ++ [token] }

/-- Go over to level `next`: one block end for each level that is lost. -/
def climb (first : Token) (next : Nat) : Laying Unit := do
  let level := (← get).level
  if level + 1 < next then
    throw (.fault ((LayoutFault.unexpectedIndent next level).onLine first.line))
  modify fun pass =>
    { pass with
      level := next
      opened := pass.opened + if level < next then 1 else 0
      output := pass.output ++ List.replicate (level - next) (Token.closeBlock first.line) }

section Levels

variable (levels : List (Option Nat))

/-- The level of the current line as it is written. A line without a level is taken to be as deep
    as the content line before it. -/
def lookUp (first : Token) : Laying Nat := do
  let pass ← get
  let found := levels[pass.line]?
  set { pass with lookups := pass.lookups ++ [(⟨first, pass.line, found⟩ : Lookup)] }
  match found with
  | none => throw .unwritten
  | some level => return level.getD pass.level

/-- Come to the content of the current line. -/
def begin (first : Token) : Laying Unit := do
  modify fun pass => { pass with hasContent := true }
  climb first (← lookUp levels first)

/-- One token further. -/
def step (token : Token) : Laying Unit := do
  modify fun pass => { pass with lastLine := token.line }
  if token.kind = .indent then return ()
  else if token.kind = .newline then
    modify fun pass => { pass with line := pass.line + 1, hasContent := false }
    put token
  else
    if !(← get).hasContent then begin levels token
    put token

end Levels

/-- Both passes. -/
def passes (tokens : List Token) : Laying Layout := do
  tokens.forM (step (lineLevels tokens))
  return (← get).closed

/-- How the passes end. -/
def outcome (tokens : List Token) : Except Stop Layout :=
  match passes tokens .start with
  | .ok layout _ => .ok layout
  | .error stop _ => .error stop

/-- What the second pass has looked up when it ends, whether or not it has laid out all
    tokens. -/
def lookups (tokens : List Token) : List Lookup :=
  match passes tokens .start with
  | .ok _ pass => pass.lookups
  | .error _ pass => pass.lookups

end Laying

/-! ## What the first pass writes -/

/-- The level of a line that has content. -/
def Line.level? (line : Line) : Option Nat :=
  if line.content.isEmpty then none else some line.level

/-- What the first pass writes for the rest of its line, and for the lines after it. -/
theorem Survey.written_foldl (survey : Survey) {tokens : List Token} {line : Line}
    {lines : List Line} (cut : Line.split tokens = line :: lines) :
    (tokens.foldl step survey).written = survey.levels ++
      level? { survey with
        indents := survey.indents + line.level
        hasContent := survey.hasContent || !line.content.isEmpty } :: lines.map Line.level? := by
  induction tokens generalizing survey line lines with
  | nil =>
      obtain ⟨rfl, rfl⟩ := List.cons.inj cut
      simp [written, Line.content, Line.level]
  | cons token rest ih =>
      obtain ⟨next, later, cutRest⟩ := List.exists_cons_of_ne_nil (Line.split_ne_nil rest)
      rw [Line.split] at cut
      rw [List.foldl_cons, ih _ cutRest, step]
      by_cases isBreak : token.kind = .newline
      · rw [if_pos isBreak, cutRest] at cut
        obtain ⟨rfl, rfl⟩ := List.cons.inj cut
        have written : level? ⟨survey.levels ++ [survey.level?], 0 + next.level,
            false || !next.content.isEmpty⟩ = next.level? := by
          cases empty : next.content.isEmpty <;> simp [level?, Line.level?, empty]
        rw [if_pos isBreak, written]
        simp [level?, Line.content, Line.level]
      · rw [if_neg isBreak, cutRest] at cut
        rw [if_neg isBreak]
        obtain ⟨rfl, rfl⟩ := List.cons.inj cut
        by_cases isIndent : token.kind = .indent
        · simp [isIndent, level?, Line.content, Line.level, Nat.add_assoc, Nat.add_comm 1]
        · simp [isIndent, level?, Line.content, Line.level]

/-- The first pass writes the level of each line that has content. -/
theorem lineLevels_eq (tokens : List Token) :
    lineLevels tokens = (Line.split tokens).map Line.level? := by
  obtain ⟨line, lines, cut⟩ := List.exists_cons_of_ne_nil (Line.split_ne_nil tokens)
  rw [lineLevels, Survey.written_foldl _ cut, cut]
  cases empty : line.content.isEmpty <;>
    simp [Survey.start, Survey.level?, Line.level?, empty]

/-! ## What the second pass looks up -/

/-- The lookup where the content of a line starts. -/
def Line.lookup? (number : Nat) (line : Line) : Option Lookup :=
  line.content.head?.map fun first => ⟨first, number, some (some line.level)⟩

/-- The lookups for lines that are numbered from `number` on, each at the first content of its
    line and with the level of that line. -/
def lookupsFrom (number : Nat) : List Line → List Lookup
  | [] => []
  | line :: lines => (line.lookup? number).toList ++ lookupsFrom (number + 1) lines

/-- What is looked up stands at the first content of some line, has the number of that line, and
    finds its level. The induction is on the lines and moves the number along. -/
theorem mem_lookupsFrom {number : Nat} {lines : List Line} {lookup : Lookup}
    (member : lookup ∈ lookupsFrom number lines) :
    ∃ index line, lookup.line = number + index ∧ lines[index]? = some line ∧
      line.content.head? = some lookup.first ∧ lookup.found = some (some line.level) := by
  induction lines generalizing number with
  | nil => cases member
  | cons line lines ih =>
      rcases List.mem_append.mp member with isHere | isLater
      · obtain ⟨first, isFirst, rfl⟩ := Option.map_eq_some_iff.mp (Option.mem_toList.mp isHere)
        exact ⟨0, line, rfl, rfl, isFirst, rfl⟩
      · obtain ⟨index, found, isLine, here⟩ := ih isLater
        exact ⟨index + 1, found, by omega, here⟩

/-- The line of the last token, where the tokens before them end on line `line`. -/
def lastLineAfter (line : Nat) (tokens : List Token) : Nat :=
  (tokens.getLast?.map Token.line).getD line

/-- One token further the last line is that of the token. -/
@[simp]
theorem lastLineAfter_cons (line : Nat) (token : Token) (tokens : List Token) :
    lastLineAfter line (token :: tokens) = lastLineAfter token.line tokens := by
  cases last : tokens.getLast? <;> simp [lastLineAfter, List.getLast?_cons, last]

/-- Behind two stretches of tokens the last line is the one that the second leads to from the
    first. -/
theorem lastLineAfter_append (line : Nat) (first second : List Token) :
    lastLineAfter line (first ++ second) = lastLineAfter (lastLineAfter line first) second := by
  induction first generalizing line with
  | nil => rfl
  | cons token first ih => simp [ih]

/-- A line that climbs by one level at most is laid out before the lines after it. -/
theorem Line.ofLines_cons {level : Nat} {line : Line} (lines : List Line)
    (climbs : line.Climbs level) :
    Layout.ofLines level (line :: lines) =
      (Layout.ofLines (line.levelAfter level) lines).map fun later =>
        ⟨line.laid level ++ later.tokens, later.level,
          later.opened + if level < line.levelAfter level then 1 else 0⟩ := by
  rw [Layout.ofLines]
  cases content : line.content with
  | nil =>
      have level : line.levelAfter level = level := by simp [levelAfter, content]
      simp [level, laid, closing, content]
      rfl
  | cons first others =>
      have noSkip : ¬ level + 1 < line.level := by
        simpa [Climbs, levelAfter, content, Nat.not_lt] using climbs
      have level : line.levelAfter level = line.level := by simp [levelAfter, content]
      simp [level, noSkip, laid, closing, content]
      rfl

/-- The second pass behind the end of a line. -/
def Pass.ended (pass : Pass) (ending : Token) : Pass :=
  { pass with
    line := pass.line + 1
    hasContent := false
    lastLine := ending.line
    output := pass.output ++ [ending] }

/-- The second pass behind the tokens of a line that climbs by one level at most. -/
def Pass.past (pass : Pass) (line : Line) (hasContent : Bool) : Pass :=
  { pass with
    hasContent := hasContent
    level := line.levelAfter pass.level
    opened := pass.opened + if pass.level < line.levelAfter pass.level then 1 else 0
    lastLine := lastLineAfter pass.lastLine line.tokens
    output := pass.output ++ (line.closing pass.level ++ line.content)
    lookups := pass.lookups ++ (line.lookup? pass.line).toList }

namespace Laying

variable {levels : List (Option Nat)} {pass : Pass}

/-- The second pass takes one token after another and stops at the first one that it cannot take. -/
theorem run_cons (token : Token) (tokens : List Token) (pass : Pass) :
    (token :: tokens).forM (step levels) pass =
      match step levels token pass with
      | .ok _ after => tokens.forM (step levels) after
      | .error stop after => .error stop after := by
  change (step levels token >>= fun _ => tokens.forM (step levels)) pass = _
  rw [Traced.bind_apply]
  cases step levels token pass <;> rfl

/-- The pass takes two stretches one after the other, and the second only if it gets through the
    first. -/
theorem run_append (first second : List Token) (pass : Pass) :
    (first ++ second).forM (step levels) pass =
      match first.forM (step levels) pass with
      | .ok _ after => second.forM (step levels) after
      | .error stop after => .error stop after := by
  induction first generalizing pass with
  | nil => rfl
  | cons token first ih =>
      rw [List.cons_append, run_cons, run_cons]
      cases step levels token pass with
      | ok value after => exact ih after
      | error stop after => rfl

/-- Indentation is dropped. All that the second pass keeps of it is the line on which it stands. -/
theorem step_indent {token : Token} (isIndent : token.kind = .indent) :
    step levels token pass = .ok () { pass with lastLine := token.line } := by
  simp only [step, if_pos isIndent]
  rfl

/-- A line break ends the line and is put out, with or without content before it. -/
theorem step_break {token : Token} (isBreak : token.kind = .newline) :
    step levels token pass = .ok () (pass.ended token) := by
  have noIndent : token.kind ≠ .indent := by simp [isBreak]
  simp only [step, if_neg noIndent, if_pos isBreak]
  rfl

/-- Content after the first of its line is put out as it is, and nothing is looked up for it. -/
theorem step_inside {token : Token} (noIndent : token.kind ≠ .indent)
    (noBreak : token.kind ≠ .newline) (inside : pass.hasContent = true) :
    step levels token pass = .ok ()
      { pass with lastLine := token.line, output := pass.output ++ [token] } := by
  obtain ⟨line, hasContent, level, opened, lastLine, output, lookups⟩ := pass
  cases inside
  simp only [step, if_neg noIndent, if_neg noBreak]
  rfl

/-- Where a level is written for the line, the second pass finds it and writes the lookup down. -/
theorem lookUp_apply {first : Token} {next : Nat}
    (written : levels[pass.line]? = some (some next)) :
    lookUp levels first pass =
      .ok next { pass with
        lookups := pass.lookups ++ [⟨first, pass.line, some (some next)⟩] } := by
  rw [← written]
  change (match levels[pass.line]? with
    | none => throw .unwritten
    | some level => return level.getD pass.level : Laying Nat) _ = _
  rw [written]
  rfl

/-- To go over to a level takes at most one step up. Any number of steps down is allowed, each with
    a block end on the line of the content that comes next. -/
theorem climb_apply (first : Token) (next : Nat) (pass : Pass) :
    climb first next pass =
      if pass.level + 1 < next then
        .error (.fault ((LayoutFault.unexpectedIndent next pass.level).onLine first.line)) pass
      else
        .ok () { pass with
          level := next
          opened := pass.opened + if pass.level < next then 1 else 0
          output := pass.output ++
            List.replicate (pass.level - next) (Token.closeBlock first.line) } := by
  unfold climb
  by_cases skips : pass.level + 1 < next
  · rw [if_pos skips, Traced.bind_apply]
    change (if pass.level + 1 < next then _ else _ : Laying Unit) pass = _
    rw [if_pos skips]
    rfl
  · rw [if_neg skips, Traced.bind_apply]
    change (if pass.level + 1 < next then _ else _ : Laying Unit) pass = _
    rw [if_neg skips]
    rfl

/-- Where content starts, the level that is written for the line is taken over, unless it is
    more than one level deeper. -/
theorem step_begin {token : Token} {next : Nat} (noIndent : token.kind ≠ .indent)
    (noBreak : token.kind ≠ .newline) (outside : pass.hasContent = false)
    (written : levels[pass.line]? = some (some next)) :
    let looked := pass.lookups ++ [⟨token, pass.line, some (some next)⟩]
    step levels token pass =
      if pass.level + 1 < next then
        .error (.fault ((LayoutFault.unexpectedIndent next pass.level).onLine token.line))
          { pass with hasContent := true, lastLine := token.line, lookups := looked }
      else
        .ok ()
          { pass with
            hasContent := true
            level := next
            opened := pass.opened + if pass.level < next then 1 else 0
            lastLine := token.line
            output := pass.output ++
              List.replicate (pass.level - next) (Token.closeBlock token.line) ++ [token]
            lookups := looked } := by
  intro looked
  obtain ⟨line, hasContent, level, opened, lastLine, output, lookups⟩ := pass
  cases outside
  let here : Pass := ⟨line, true, level, opened, token.line, output, lookups⟩
  have taken : step levels token ⟨line, false, level, opened, lastLine, output, lookups⟩ =
      ((lookUp levels token >>= climb token) >>= fun _ => put token) here := by
    simp only [step, if_neg noIndent, if_neg noBreak]
    rfl
  have found : lookUp levels token here = .ok next { here with lookups := looked } :=
    lookUp_apply written
  rw [taken, Traced.bind_apply, Traced.bind_apply, found]
  dsimp only
  rw [climb_apply]
  by_cases skips : level + 1 < next
  · simp only [here, skips, if_true]
  · simp only [here, skips, if_false]
    rfl

/-! ## One line -/

/-- Inside the content of a line all other content follows, and indentation is dropped. -/
theorem run_inside {tokens : List Token} (noBreak : ∀ token ∈ tokens, token.kind ≠ .newline)
    (pass : Pass) (inside : pass.hasContent = true) :
    tokens.forM (step levels) pass = .ok ()
      { pass with
        lastLine := lastLineAfter pass.lastLine tokens
        output := pass.output ++ tokens.filter fun token => token.kind != .indent } := by
  induction tokens generalizing pass with
  | nil => simp [lastLineAfter]; rfl
  | cons token tokens ih =>
      rw [List.forall_mem_cons] at noBreak
      rw [run_cons]
      by_cases isIndent : token.kind = .indent
      · rw [step_indent isIndent]
        simp [ih noBreak.2, inside, isIndent]
      · rw [step_inside isIndent noBreak.1 inside]
        simp [ih noBreak.2, inside, isIndent]

/-- Nothing is looked up for a line without content. All of its tokens are indentation, and they are
    dropped one by one. -/
theorem run_blank {tokens : List Token} (noBreak : ∀ token ∈ tokens, token.kind ≠ .newline)
    (pass : Pass) (blank : (tokens.filter fun token => token.kind != .indent) = []) :
    tokens.forM (step levels) pass =
      .ok () { pass with lastLine := lastLineAfter pass.lastLine tokens } := by
  induction tokens generalizing pass with
  | nil => rfl
  | cons token tokens ih =>
      rw [List.forall_mem_cons] at noBreak
      have isIndent : token.kind = .indent := by
        by_contra isContent
        simp [isContent] at blank
      rw [run_cons, step_indent isIndent]
      simp [ih noBreak.2 _ (by simpa [isIndent] using blank)]

/-- The level that is written for a line is looked up at the first content of the line. -/
theorem run_begin {tokens others : List Token} {first : Token} {next : Nat}
    (noBreak : ∀ token ∈ tokens, token.kind ≠ .newline) (pass : Pass)
    (outside : pass.hasContent = false) (written : levels[pass.line]? = some (some next))
    (content : (tokens.filter fun token => token.kind != .indent) = first :: others) :
    let looked := pass.lookups ++ [⟨first, pass.line, some (some next)⟩]
    tokens.forM (step levels) pass =
      if pass.level + 1 < next then
        .error (.fault ((LayoutFault.unexpectedIndent next pass.level).onLine first.line))
          { pass with hasContent := true, lastLine := first.line, lookups := looked }
      else
        .ok ()
          { pass with
            hasContent := true
            level := next
            opened := pass.opened + if pass.level < next then 1 else 0
            lastLine := lastLineAfter pass.lastLine tokens
            output := pass.output ++
              (List.replicate (pass.level - next) (Token.closeBlock first.line) ++
                first :: others)
            lookups := looked } := by
  induction tokens generalizing pass with
  | nil => cases content
  | cons token tokens ih =>
      rw [List.forall_mem_cons] at noBreak
      rw [run_cons]
      by_cases isIndent : token.kind = .indent
      · rw [step_indent isIndent]
        have later := ih noBreak.2 { pass with lastLine := token.line } outside written
          (by simpa [isIndent] using content)
        simpa using later
      · obtain ⟨rfl, rfl⟩ : token = first ∧ (tokens.filter fun token => token.kind != .indent) =
            others := by simpa [isIndent] using content
        rw [step_begin isIndent noBreak.1 outside written]
        by_cases skips : pass.level + 1 < next
        · simp only [skips, if_true]
        · simp only [skips, if_false]
          rw [run_inside noBreak.2 _ rfl]
          simp

/-- What one line makes of the second pass. A line that climbs by one level at most is laid out
    with its block ends, and any other line is a fault. In both cases its level has been looked
    up where its content starts. -/
inductive LineRun (pass : Pass) (line : Line) : EStateM.Result Stop Pass Unit → Prop
  | laid (hasContent : Bool) (climbs : line.Climbs pass.level) :
      LineRun pass line (.ok () (pass.past line hasContent))
  | fault {first : Token} {others : List Token} {after : Pass} (skips : ¬ line.Climbs pass.level)
      (content : line.content = first :: others)
      (looked : after.lookups = pass.lookups ++ (line.lookup? pass.line).toList) :
      LineRun pass line (.error
        (.fault ((LayoutFault.unexpectedIndent line.level pass.level).onLine first.line)) after)

/-- The second pass goes through one line as it should, if the level of the line is what the first
    pass has written under its number. The level may be missing only where there is no content. -/
theorem run_line {line : Line} (noBreak : ∀ token ∈ line.tokens, token.kind ≠ .newline)
    (outside : pass.hasContent = false) (written : levels[pass.line]? = some line.level?) :
    LineRun pass line (line.tokens.forM (step levels) pass) := by
  cases content : line.content with
  | nil =>
      have level : line.levelAfter pass.level = pass.level := by simp [Line.levelAfter, content]
      have climbs : line.Climbs pass.level := by simp [Line.Climbs, level]
      have laid := LineRun.laid pass.hasContent climbs
      rw [run_blank noBreak pass content]
      simpa [Pass.past, level, Line.closing, content, Line.lookup?] using laid
  | cons first others =>
      have level : line.levelAfter pass.level = line.level := by simp [Line.levelAfter, content]
      have isWritten : levels[pass.line]? = some (some line.level) := by
        simpa [Line.level?, content] using written
      rw [run_begin noBreak pass outside isWritten content]
      by_cases skips : pass.level + 1 < line.level
      · rw [if_pos skips]
        refine .fault ?_ content ?_
        · simpa [Line.Climbs, level] using skips
        · simp [Line.lookup?, content]
      · have climbs : line.Climbs pass.level := by
          simpa [Line.Climbs, level, Nat.not_lt] using skips
        have laid := LineRun.laid true climbs
        rw [if_neg skips]
        simpa [Pass.past, level, Line.closing, content, Line.lookup?] using laid

/-! ## All lines -/

/-- The second pass ends like layout of the lines that are still to come. It has looked up what
    it should in all of them, or in those up to the fault. -/
inductive Ends (pass : Pass) (tokens : List Token) :
    Except Failure Layout → EStateM.Result Stop Pass Unit → Prop
  | ok {layout : Layout} {after : Pass}
      (level : after.level = layout.level)
      (opened : after.opened = pass.opened + layout.opened)
      (lastLine : after.lastLine = lastLineAfter pass.lastLine tokens)
      (output : after.output = pass.output ++ layout.tokens)
      (looked : after.lookups = pass.lookups ++ lookupsFrom pass.line (Line.split tokens)) :
      Ends pass tokens (.ok layout) (.ok () after)
  | error {failure : Failure} {after : Pass} {passed : List Lookup}
      (looked : after.lookups = pass.lookups ++ passed)
      (isPrefix : passed <+: lookupsFrom pass.line (Line.split tokens)) :
      Ends pass tokens (.error failure) (.error (.fault failure) after)

/-- A line that skips a level ends both ways of layout with the same fault, and what was looked up
    before and at this line is what should have been. -/
theorem Ends.fault {line : Line} {lines : List Line} {tokens : List Token} {first : Token}
    {others : List Token} {after : Pass} (cut : Line.split tokens = line :: lines)
    (skips : ¬ line.Climbs pass.level) (content : line.content = first :: others)
    (looked : after.lookups = pass.lookups ++ (line.lookup? pass.line).toList) :
    Ends pass tokens (Layout.ofLines pass.level (Line.split tokens))
      (.error (.fault ((LayoutFault.unexpectedIndent line.level pass.level).onLine first.line))
        after) := by
  obtain ⟨found, more, isContent, fails⟩ := Line.ofLines_cons_skip lines skips
  obtain ⟨rfl, -⟩ := List.cons.inj (content.symm.trans isContent)
  rw [cut, fails]
  refine .error looked ?_
  rw [cut, lookupsFrom]
  exact List.prefix_append _ _

/-- If the first pass has written the levels of the lines to come, the second pass lays these
    lines out. -/
theorem run_ends (levels : List (Option Nat)) (tokens : List Token) (pass : Pass)
    (outside : pass.hasContent = false)
    (written : levels.drop pass.line = (Line.split tokens).map Line.level?) :
    Ends pass tokens (Layout.ofLines pass.level (Line.split tokens))
      (tokens.forM (step levels) pass) := by
  have head {pass : Pass} {line : Line} {lines : List Line}
      (written : levels.drop pass.line = (line :: lines).map Line.level?) :
      levels[pass.line]? = some line.level? := by
    rw [← List.head?_drop, written]
    rfl
  induction tokens using lines_induction generalizing pass with
  | last tokens noBreak =>
      have cut := split_inline noBreak
      rw [cut] at written
      have run : LineRun pass ⟨tokens, none⟩ (tokens.forM (step levels) pass) :=
        run_line noBreak outside (head written)
      generalize tokens.forM (step levels) pass = result at run ⊢
      cases run with
      | laid hasContent climbs =>
          rw [cut, Line.ofLines_cons [] climbs]
          refine .ok rfl (by simp [Pass.past]) rfl ?_ (by simp [Pass.past, cut, lookupsFrom])
          simp [Pass.past, Line.laid, Line.unindented]
      | fault skips content looked => exact .fault cut skips content looked
  | line tokens ending later noBreak isBreak ih =>
      have cut := Line.split_line noBreak isBreak later
      rw [cut] at written
      have run : LineRun pass ⟨tokens, some ending⟩ (tokens.forM (step levels) pass) :=
        run_line noBreak outside (head written)
      rw [run_append]
      generalize tokens.forM (step levels) pass = result at run ⊢
      cases run with
      | laid hasContent climbs =>
          dsimp only
          rw [run_cons, step_break isBreak, cut, Line.ofLines_cons _ climbs]
          let next := (pass.past ⟨tokens, some ending⟩ hasContent).ended ending
          have rest : levels.drop next.line = (Line.split later).map Line.level? := by
            change levels.drop (pass.line + 1) = _
            rw [← List.drop_drop, written]
            rfl
          have ends := ih next rfl rest
          change Ends pass (tokens ++ ending :: later)
            ((Layout.ofLines next.level (Line.split later)).map _) (later.forM (step levels) next)
          generalize later.forM (step levels) next = result at ends ⊢
          generalize Layout.ofLines next.level (Line.split later) = outcome at ends ⊢
          cases ends with
          | ok level opened lastLine output looked =>
              refine .ok level ?_ ?_ ?_ ?_
              · simp [opened, next, Pass.ended, Pass.past]
                omega
              · rw [lastLine, lastLineAfter_append, lastLineAfter_cons]
                rfl
              · simp [output, next, Pass.ended, Pass.past, Line.laid, Line.unindented]
              · simp [looked, next, Pass.ended, Pass.past, cut, lookupsFrom]
          | @error failure after passed looked isPrefix =>
              have lookedAll : after.lookups = pass.lookups ++
                  ((Line.lookup? pass.line ⟨tokens, some ending⟩).toList ++ passed) := by
                simp [looked, next, Pass.ended, Pass.past]
              refine .error lookedAll ?_
              rw [cut, lookupsFrom]
              exact (List.prefix_append_right_inj _).mpr isPrefix
      | fault skips content looked => exact .fault cut skips content looked

/-- Both passes end like layout, with the lookups that they should have made. -/
theorem passes_ends (tokens : List Token) :
    Ends .start tokens (Layout.ofLines 0 (Line.split tokens))
      (tokens.forM (step (lineLevels tokens)) .start) :=
  run_ends _ _ .start rfl (lineLevels_eq tokens)

/-- Both passes together succeed exactly if the second one gets through all tokens, and then the
    blocks that are still open are closed. -/
theorem passes_apply (tokens : List Token) (pass : Pass) :
    passes tokens pass =
      match tokens.forM (step (lineLevels tokens)) pass with
      | .ok _ after => .ok after.closed after
      | .error stop after => .error stop after := by
  rw [passes, Traced.bind_apply]
  cases tokens.forM (step (lineLevels tokens)) pass <;> rfl

end Laying

/-- The two passes lay out the same tokens as layout line by line, or report the same fault, so
    the second pass never comes to a line for which nothing is written. Whatever it looks up, it
    looks up where the content of a line of its number starts, and it finds the number of
    indentation tokens of that line. If it comes to the end, it has looked up the level of each
    line that has content, in order. -/
theorem passes_agree (tokens : List Token) :
    Laying.outcome tokens = (Layout.ofTokens tokens).mapError Stop.fault ∧
      (∀ lookup ∈ Laying.lookups tokens, ∃ line, (Line.split tokens)[lookup.line]? = some line ∧
        line.content.head? = some lookup.first ∧ lookup.found = some (some line.level)) ∧
      ∀ layout, Layout.ofTokens tokens = .ok layout →
        Laying.lookups tokens = lookupsFrom 0 (Line.split tokens) := by
  have right {found : List Lookup} (isPrefix : found <+: lookupsFrom 0 (Line.split tokens)) :
      ∀ lookup ∈ found, ∃ line, (Line.split tokens)[lookup.line]? = some line ∧
        line.content.head? = some lookup.first ∧ lookup.found = some (some line.level) := by
    intro lookup member
    obtain ⟨index, line, isIndex, here⟩ := mem_lookupsFrom (isPrefix.subset member)
    rw [isIndex, Nat.zero_add]
    exact ⟨line, here⟩
  have ends := Laying.passes_ends tokens
  rw [Laying.outcome, Laying.lookups, Laying.passes_apply, Layout.ofTokens]
  generalize tokens.forM (Laying.step (lineLevels tokens)) .start = result at ends ⊢
  generalize Layout.ofLines 0 (Line.split tokens) = laid at ends ⊢
  cases ends with
  | ok level opened lastLine output looked =>
      rw [Pass.start, List.nil_append] at looked
      refine ⟨?_, ?_, fun _ _ => looked⟩
      · simp only [Pass.closed, level, opened, lastLine, output, Pass.start, List.nil_append,
          Nat.zero_add]
        rfl
      · dsimp only
        rw [looked]
        exact right (List.prefix_refl _)
  | error looked isPrefix =>
      rw [Pass.start, List.nil_append] at looked
      refine ⟨rfl, ?_, ?_⟩
      · dsimp only
        rw [looked]
        exact right isPrefix
      · intro layout isLaid
        cases isLaid

/-- A line without content, indentation after content, and a block end among the tokens. -/
theorem passes_agree_stray :
    let name (lexeme : String) (line : Nat) : Token := ⟨.identifier, lexeme, line⟩
    let tokens : List Token :=
      [name "x" 1, .newline 1, .indent 2, .newline 2, name "y" 3, .indent 3, .newline 3,
        .closeBlock 4]
    (∃ layout, Layout.ofTokens tokens = .ok layout) ∧
      Laying.lookups tokens =
        [⟨name "x" 1, 0, some (some 0)⟩, ⟨name "y" 3, 2, some (some 1)⟩,
          ⟨.closeBlock 4, 3, some (some 0)⟩] ∧
      ∃ line, (Line.split tokens)[2]? = some line ∧ line.content.head? = some (name "y" 3) ∧
        line.level = 1 := by
  intro name tokens
  obtain ⟨layout, laid⟩ : ∃ layout, Layout.ofTokens tokens = .ok layout := ⟨_, rfl⟩
  obtain ⟨-, right, all⟩ := passes_agree tokens
  have looked := all layout laid
  refine ⟨⟨layout, laid⟩, looked, ?_⟩
  obtain ⟨line, isLine, isFirst, isLevel⟩ := right ⟨name "y" 3, 2, some (some 1)⟩ (by
    rw [looked]
    exact List.mem_cons_of_mem _ List.mem_cons_self)
  exact ⟨line, isLine, isFirst, (Option.some.inj (Option.some.inj isLevel)).symm⟩

end Offside
