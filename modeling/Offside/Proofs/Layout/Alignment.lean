import Mathlib
import Offside.Proofs.Layout.Depth
import Offside.Proofs.Layout.Numbering
import Offside.Proofs.Source.Phases
import Offside.Proofs.Text.Encoding

/-!
# Depth and indentation

Layout marks where the level drops, and the grammar opens a block at a colon that
ends a line. Nothing marks a rise, so a rise that no colon asks for and a colon
that no rise follows can make up for each other: the blocks are balanced, the
program is accepted, and the statements between the two stand deeper or less deep
than they are written.

This is the only way in which it happens. Every statement of a program is in as
many blocks as its line has levels of indentation exactly when the lines are
aligned: a content line is deeper than the one before it exactly where that one
ends with a colon.
-/

namespace Offside

open Grammar

/-- The line ends with a colon. -/
def Line.opens (line : Line) : Bool :=
  line.content.getLast?.any fun token => decide (token.kind = .colon)

/-- A content line is deeper than the content line before it exactly where that one
    ends with a colon. Before the first line, the level is `level`, and `opens` says
    whether a colon comes right before. -/
def Aligned (level : Nat) (opens : Bool) : List Line → Prop
  | [] => True
  | line :: lines =>
      if line.content = [] then Aligned level opens lines
      else (level < line.level ↔ opens = true) ∧ Aligned line.level line.opens lines

instance Aligned.decidable :
    (level : Nat) → (opens : Bool) → (lines : List Line) → Decidable (Aligned level opens lines)
  | _, _, [] => inferInstanceAs (Decidable True)
  | level, opens, line :: lines =>
      have : Decidable (Aligned level opens lines) := Aligned.decidable level opens lines
      have : Decidable (Aligned line.level line.opens lines) :=
        Aligned.decidable line.level line.opens lines
      inferInstanceAs (Decidable (if line.content = [] then Aligned level opens lines
        else (level < line.level ↔ opens = true) ∧ Aligned line.level line.opens lines))

/-! ## Lines of a layout -/

/-- Block ends are no heads. They take as many levels off the cursor as they are, and what follows
    them is fresh and comes after a closed block. -/
theorem heads_closing (count number : Nat) {cursor : Cursor} (fresh : cursor.fresh = true) :
    heads cursor (List.replicate count (Token.closeBlock number)) = [] ∧
      cursor.run (List.replicate count (Token.closeBlock number)) =
        ⟨cursor.depth - count, cursor.ending, cursor.closed || decide (0 < count), true⟩ := by
  induction count generalizing cursor with
  | zero =>
      obtain ⟨depth, ending, closed, isFresh⟩ := cursor
      subst fresh
      exact ⟨rfl, by simp⟩
  | succ count ih =>
      have step := cursor.step_close (show (Token.closeBlock number).kind = .closeBlock from rfl)
      have notInline : ¬ (Token.closeBlock number).Inline := fun isInline => isInline.2 rfl
      obtain ⟨noHeads, run⟩ := ih (show (cursor.step (Token.closeBlock number)).fresh = true by
        rw [step])
      rw [List.replicate_succ, heads, if_neg (by simp [notInline]), Cursor.run_cons, run, step]
      refine ⟨by rw [← step, noHeads], ?_⟩
      simp only [Cursor.mk.injEq, Nat.zero_lt_succ, decide_true, Bool.or_true, Bool.true_or,
        and_self, and_true]
      omega

/-- The cursor at the first token of a content line, where the content line before it
    has level `level`. -/
def Cursor.atLine (cursor : Cursor) (level : Nat) (line : Line) : Cursor :=
  ⟨cursor.depth - (level - line.level : Nat), cursor.ending,
    cursor.closed || decide (line.level < level), true⟩

/-- The cursor after a content line, by the kind of its last token and whether a line
    break comes after that. -/
def Cursor.pastLine (cursor : Cursor) (ending : Kind) (ended : Bool) : Cursor :=
  ⟨cursor.depth + if ending = .colon ∧ ended = true then 1 else 0, ending, false, ended⟩

/-- The end of a content line, with its line break or without one. A colon opens a block only if the
    line break is there, and no head is met. -/
theorem run_ending {ending : Option Token} (breaks : ∀ token ∈ ending, token.kind = .newline)
    (depth : Int) (kind : Kind) :
    (Cursor.mk depth kind false false).run ending.toList =
        (Cursor.mk depth kind false false).pastLine kind ending.isSome ∧
      heads (Cursor.mk depth kind false false) ending.toList = [] := by
  cases ending with
  | none => simp [Cursor.pastLine, heads]
  | some token =>
      have isBreak := breaks token rfl
      constructor
      · by_cases colon : kind = .colon <;> simp [Cursor.pastLine, Cursor.step, isBreak, colon]
      · simp [heads]

/-- A line without content leaves its line break alone in the layout, so neither the heads nor the
    cursor at the end can tell that it is there. -/
theorem blank_line {number level : Nat} {line : Line} {lines : List Line} {layout : Layout}
    (numbered : Numbered number (line :: lines)) (blank : line.content = [])
    (laidOut : Layout.ofLines level (line :: lines) = .ok layout) :
    ∃ later, Layout.ofLines level lines = .ok later ∧ layout.level = later.level ∧
      ∀ cursor : Cursor, cursor.fresh = true →
        heads cursor layout.tokens = heads cursor later.tokens ∧
          cursor.run layout.tokens = cursor.run later.tokens := by
  simp only [Layout.ofLines, blank] at laidOut
  obtain ⟨later, laidLater, same⟩ := except_bind_ok_iff.mp laidOut
  cases same
  refine ⟨later, laidLater, rfl, fun cursor fresh => ?_⟩
  have breaks : Breaks line.ending.toList := fun token member =>
    (numbered.2.1 token (Option.mem_toList.mp member)).1
  obtain ⟨noHeads, run⟩ := heads_breaks breaks fresh
  simp only [Line.unindented, blank, List.nil_append]
  rw [heads_append, Cursor.run_append, noHeads, run]
  exact ⟨rfl, rfl⟩

/-- A line with content has one head in the layout, its first token, at the level of the line before
    less the blocks that are closed there. All that follows is met by a cursor that has gone past
    the line. -/
theorem content_line {number level : Nat} {line : Line} {lines : List Line} {layout : Layout}
    (numbered : Numbered number (line :: lines)) (content : line.content ≠ [])
    (laidOut : Layout.ofLines level (line :: lines) = .ok layout) {cursor : Cursor}
    (fresh : cursor.fresh = true) :
    ∃ later first ending, Layout.ofLines line.level lines = .ok later ∧
      layout.level = later.level ∧ line.level ≤ level + 1 ∧ first ∈ line.tokens ∧
      line.opens = decide (ending = .colon) ∧
      heads cursor layout.tokens = (cursor.atLine level line, first) ::
        heads ((cursor.atLine level line).pastLine ending line.ending.isSome) later.tokens ∧
      cursor.run layout.tokens =
        ((cursor.atLine level line).pastLine ending line.ending.isSome).run later.tokens := by
  obtain ⟨first, more, isContent⟩ := List.exists_cons_of_ne_nil content
  have isInline : Inline (first :: more) := by
    intro token member
    rw [← isContent] at member
    exact (numbered.1 token (List.mem_filter.mp member).1).1
  simp only [Layout.ofLines, isContent] at laidOut
  split at laidOut
  · cases laidOut
  · rename_i oneStep
    obtain ⟨later, laidLater, same⟩ := except_bind_ok_iff.mp laidOut
    cases same
    obtain ⟨noHeads, closing⟩ := heads_closing (level - line.level) first.line fresh
    have atLine : (⟨cursor.depth - (level - line.level : Nat), cursor.ending,
        cursor.closed || decide (0 < level - line.level), true⟩ : Cursor) =
          cursor.atLine level line := by
      simp only [Cursor.atLine, Nat.sub_pos_iff_lt]
    rw [atLine] at closing
    obtain ⟨last, isLast, oneHead, run⟩ :=
      heads_line isInline (show (cursor.atLine level line).fresh = true from rfl)
    obtain ⟨runEnding, noMore⟩ := run_ending (fun token member => (numbered.2.1 token member).1)
      (cursor.atLine level line).depth last.kind
    have isMember : first ∈ line.tokens :=
      (List.mem_filter.mp (show first ∈ line.content by simp [isContent])).1
    refine ⟨later, first, last.kind, laidLater, rfl, by omega, isMember, ?_, ?_, ?_⟩
    · simp [Line.opens, isContent, isLast]
    · simp only [Line.unindented, isContent, heads_append, noHeads, closing, oneHead, run, runEnding,
        noMore, List.nil_append, List.append_nil, List.singleton_append, Cursor.run_append]
      rfl
    · simp only [Line.unindented, isContent, Cursor.run_append, closing, run, runEnding]
      rfl

/-! ## Heads and levels -/

/-- A head stands where its line says: as deep as indented, or it continues a chain
    after a block. -/
def Stands (levelOf : Nat → Nat) (head : Cursor × Token) : Prop :=
  head.1.depth = levelOf head.2.line ∨
    ¬ StartsStatement head.2 ∧ head.1.closed = true ∧ head.1.ending ≠ .colon

/-- The cursor is where a line of level `level` was, or in the block that this line
    opens. -/
structure Cursor.Even (cursor : Cursor) (level : Nat) : Prop where
  fresh : cursor.fresh = true
  notClosed : cursor.closed = false
  depth : cursor.depth = level + if cursor.ending = .colon then 1 else 0

/-- On a content line, the depth is the level exactly where the line is deeper than
    the one before just in case that one ends with a colon. -/
theorem Cursor.Even.depth_atLine {cursor : Cursor} {level : Nat} (even : cursor.Even level)
    {line : Line} (oneStep : line.level ≤ level + 1) :
    (cursor.atLine level line).depth = line.level ↔
      (level < line.level ↔ cursor.ending = .colon) := by
  have depth := even.depth
  by_cases colon : cursor.ending = .colon
  · rw [if_pos colon] at depth
    simp only [atLine, colon, iff_true]
    omega
  · rw [if_neg colon] at depth
    simp only [atLine, colon, iff_false]
    omega

/-- The head of a content line stands where its line says exactly if the line is deeper than the one
    before just in case a colon has opened a block. A rise by more than one level is excluded by
    layout. -/
theorem Cursor.Even.stands_iff {cursor : Cursor} {level : Nat} (even : cursor.Even level)
    {line : Line} (oneStep : line.level ≤ level + 1) {levelOf : Nat → Nat} {first : Token}
    (measured : levelOf first.line = line.level) :
    Stands levelOf (cursor.atLine level line, first) ↔
      (level < line.level ↔ cursor.ending = .colon) := by
  rw [← even.depth_atLine oneStep, Stands, measured]
  constructor
  · rintro (deep | ⟨_, closed, plain⟩)
    · exact deep
    · -- The level drops and no block opens, so the depth drops with the level.
      have drops : line.level < level := by
        simpa [Cursor.atLine, even.notClosed] using closed
      rw [even.depth_atLine oneStep]
      exact ⟨fun rises => absurd rises (by omega), fun colon => absurd colon plain⟩
  · exact Or.inl

/-- From a cursor at the level of the line before, all heads stand where their lines say exactly
    when the lines are aligned. The induction is on the lines, and each content line hands over a
    cursor at its own level. -/
theorem stands_iff_aligned {levelOf : Nat → Nat} {lines : List Line} {number level : Nat}
    {layout : Layout} (numbered : Numbered number lines)
    (measured : ∀ line ∈ lines, ∀ token ∈ line.tokens, levelOf token.line = line.level)
    (laidOut : Layout.ofLines level lines = .ok layout) {cursor : Cursor}
    (even : cursor.Even level) :
    (∀ head ∈ heads cursor layout.tokens, Stands levelOf head) ↔
      Aligned level (decide (cursor.ending = .colon)) lines := by
  induction lines generalizing number level layout cursor with
  | nil =>
      cases laidOut
      simp [heads, Aligned]
  | cons line lines ih =>
      have measuredLater : ∀ other ∈ lines, ∀ token ∈ other.tokens,
          levelOf token.line = other.level := fun other isLater =>
        measured other (List.mem_cons_of_mem line isLater)
      by_cases blank : line.content = []
      · obtain ⟨later, laidLater, _, same⟩ := blank_line numbered blank laidOut
        rw [(same cursor even.fresh).1, Aligned, if_pos blank]
        exact ih numbered.2.2.2 measuredLater laidLater even
      · obtain ⟨later, first, ending, laidLater, _, oneStep, isMember, opens, isHeads, _⟩ :=
          content_line numbered blank laidOut even.fresh
        rw [isHeads, List.forall_mem_cons, Aligned, if_neg blank,
          even.stands_iff oneStep (measured line (by simp) first isMember), decide_eq_true_iff]
        apply and_congr_right
        intro aligned
        cases isEnding : line.ending with
        | none =>
            have noLines := numbered.2.2.1 isEnding
            subst noLines
            cases laidLater
            simp [heads, Aligned]
        | some token =>
            rw [opens]
            apply ih numbered.2.2.2 measuredLater laidLater
            have deep := (even.depth_atLine oneStep).mpr aligned
            exact ⟨rfl, rfl, by simp [Cursor.pastLine, deep]⟩

/-! ## The line of the import clause -/

/-- Lines without content before the first content line change nothing, so a source may be taken to
    start with its import clause. -/
theorem skip_blank {lines : List Line} {number level : Nat} {layout : Layout}
    (numbered : Numbered number lines) (laidOut : Layout.ofLines level lines = .ok layout) :
    ∃ start rest later, Numbered start rest ∧ (∀ line ∈ rest, line ∈ lines) ∧
      (∀ line ∈ rest.head?, line.content ≠ []) ∧ Layout.ofLines level rest = .ok later ∧
      layout.level = later.level ∧
      ∀ cursor : Cursor, cursor.fresh = true →
        heads cursor layout.tokens = heads cursor later.tokens ∧
          cursor.run layout.tokens = cursor.run later.tokens := by
  induction lines generalizing number layout with
  | nil => exact ⟨number, [], layout, numbered, by simp, by simp, laidOut, rfl, by simp⟩
  | cons line lines ih =>
      by_cases blank : line.content = []
      · obtain ⟨between, laidBetween, sameLevel, same⟩ := blank_line numbered blank laidOut
        obtain ⟨start, rest, later, numberedRest, among, front, laidLater, restLevel, restSame⟩ :=
          ih numbered.2.2.2 laidBetween
        refine ⟨start, rest, later, numberedRest,
          fun other member => List.mem_cons_of_mem line (among other member), front, laidLater,
          sameLevel.trans restLevel, fun cursor fresh => ?_⟩
        obtain ⟨sameHeads, sameRun⟩ := same cursor fresh
        obtain ⟨restHeads, restRun⟩ := restSame cursor fresh
        exact ⟨sameHeads.trans restHeads, sameRun.trans restRun⟩
      · exact ⟨number, line :: lines, layout, numbered, fun _ member => member, by simpa using blank,
          laidOut, rfl, fun _ _ => ⟨rfl, rfl⟩⟩

/-- The end of a layout: what is open after the last line is closed, and the line ends. -/
def closingTokens (level number : Nat) : List Token :=
  List.replicate level (Token.closeBlock number) ++ [Token.newline number]

/-- Nothing that layout puts at the end of a source is a head. -/
theorem heads_closingTokens (level number : Nat) (cursor : Cursor) :
    heads cursor (closingTokens level number) = [] := by
  unfold closingTokens
  induction level generalizing cursor with
  | zero => simp [heads, Token.Inline, Token.newline]
  | succ level ih =>
      rw [List.replicate_succ, List.cons_append, heads,
        if_neg (by simp [Token.Inline, Token.closeBlock]), ih]

/-- What layout puts at the end closes as many blocks as the last content line had levels, and keeps
    the kind of the last token on that line. -/
theorem run_closingTokens {level : Nat} (indented : 0 < level) (number : Nat) (cursor : Cursor) :
    (cursor.run (closingTokens level number)).depth = cursor.depth - level ∧
      (cursor.run (closingTokens level number)).ending = cursor.ending := by
  obtain ⟨count, rfl⟩ : ∃ count, level = count + 1 := ⟨level - 1, by omega⟩
  have step := cursor.step_close (show (Token.closeBlock number).kind = .closeBlock from rfl)
  obtain ⟨_, run⟩ := heads_closing count number
    (show (cursor.step (Token.closeBlock number)).fresh = true by rw [step])
  rw [closingTokens, List.replicate_succ, List.cons_append, Cursor.run_cons, Cursor.run_append, run,
    Cursor.run_cons, Cursor.run_nil, Cursor.step_break rfl rfl, step]
  refine ⟨?_, rfl⟩
  push_cast
  omega

/-- After a line of level one in no block, the next head is a statement that does not
    stand where its line says, or nothing opens the block that is closed in the end. -/
theorem not_lagging {levelOf : Nat → Nat} {lines : List Line} {number closing : Nat}
    {layout : Layout} {cursor : Cursor} (numbered : Numbered number lines)
    (measured : ∀ line ∈ lines, ∀ token ∈ line.tokens, levelOf token.line = line.level)
    (laidOut : Layout.ofLines 1 lines = .ok layout) (notClosed : cursor.closed = false)
    (ended : cursor.fresh = false → lines = [])
    (lags : cursor.depth = if cursor.ending = .colon ∧ cursor.fresh = true then 1 else 0)
    (second : ∀ head ∈ (heads cursor layout.tokens).head?,
      StartsStatement head.2 ∧ head.1.depth = 0 ∧ head.1.closed = false)
    (balanced : ((cursor.run layout.tokens).run (closingTokens layout.level closing)).depth = 0)
    (plain : ((cursor.run layout.tokens).run (closingTokens layout.level closing)).ending ≠ .colon)
    (stand : ∀ head ∈ heads cursor layout.tokens, Stands levelOf head) : False := by
  -- With no more content, the end closes one block, and only a colon can have opened it.
  have noContent (none : cursor.run layout.tokens = cursor) (levelOne : layout.level = 1) :
      False := by
    rw [none, levelOne] at balanced plain
    obtain ⟨endDepth, endEnding⟩ := run_closingTokens Nat.one_pos closing cursor
    rw [endDepth, lags] at balanced
    rw [endEnding] at plain
    simp [plain] at balanced
  cases fresh : cursor.fresh with
  | false =>
      obtain rfl := ended fresh
      cases laidOut
      exact noContent rfl rfl
  | true =>
      obtain ⟨start, rest, later, numberedRest, among, front, laidLater, sameLevel, same⟩ :=
        skip_blank numbered laidOut
      obtain ⟨sameHeads, sameRun⟩ := same cursor fresh
      cases rest with
      | nil =>
          cases laidLater
          exact noContent sameRun sameLevel
      | cons line rest =>
          obtain ⟨next, token, ending, _, _, _, isMember, _, lineHeads, _⟩ :=
            content_line numberedRest (front line rfl) laidLater fresh
          rw [sameHeads, lineHeads] at second stand
          obtain ⟨starts, isTop, stillOpen⟩ := second (cursor.atLine 1 line, token) rfl
          have level : 1 ≤ line.level := by
            simpa [Cursor.atLine, notClosed, Nat.one_le_iff_ne_zero] using stillOpen
          rcases stand (cursor.atLine 1 line, token) (by simp) with deep | ⟨noStatement, _⟩
          · rw [isTop, measured line (among line (by simp)) token isMember] at deep
            omega
          · exact noStatement starts

/-- The import clause is not indented where the statements stand as their lines say. -/
theorem first_level {levelOf : Nat → Nat} {lines : List Line} {number closing : Nat}
    {layout : Layout} {first : Token} {others : List (Cursor × Token)}
    (numbered : Numbered number lines)
    (measured : ∀ line ∈ lines, ∀ token ∈ line.tokens, levelOf token.line = line.level)
    (laidOut : Layout.ofLines 0 lines = .ok layout)
    (isHeads : heads .start layout.tokens = (.start, first) :: others)
    (second : ∀ head ∈ others.head?,
      StartsStatement head.2 ∧ head.1.depth = 0 ∧ head.1.closed = false)
    (balanced :
      ((Cursor.start.run layout.tokens).run (closingTokens layout.level closing)).depth = 0)
    (plain :
      ((Cursor.start.run layout.tokens).run (closingTokens layout.level closing)).ending ≠ .colon)
    (stand : ∀ head ∈ others, Stands levelOf head) : levelOf first.line = 0 := by
  obtain ⟨start, rest, later, numberedRest, among, front, laidLater, sameLevel, same⟩ :=
    skip_blank numbered laidOut
  obtain ⟨sameHeads, sameRun⟩ := same .start rfl
  cases rest with
  | nil =>
      cases laidLater
      rw [sameHeads] at isHeads
      simp [heads] at isHeads
  | cons line rest =>
      obtain ⟨next, token, ending, laidNext, nextLevel, oneStep, isMember, _, lineHeads, lineRun⟩ :=
        content_line numberedRest (front line rfl) laidLater
          (show Cursor.start.fresh = true from rfl)
      rw [sameHeads, lineHeads] at isHeads
      obtain ⟨sameFirst, rfl⟩ := List.cons.inj isHeads
      obtain rfl : token = first := (Prod.mk.inj sameFirst).2
      rw [measured line (among line (by simp)) token isMember]
      rw [sameRun, lineRun, sameLevel, nextLevel] at balanced plain
      by_contra indented
      have levelOne : line.level = 1 := by omega
      rw [levelOne] at laidNext
      apply not_lagging numberedRest.2.2.2
        (fun other isLine => measured other (among other (List.mem_cons_of_mem line isLine)))
        laidNext rfl ?_ ?_ second balanced plain stand
      · intro unended
        exact numberedRest.2.2.1 (by simpa [Cursor.pastLine] using unended)
      · simp [Cursor.pastLine, Cursor.atLine, Cursor.start]

/-! ## Programs -/

/-- The layout of a token list is that of its lines, with the open blocks closed behind it. Their
    number is the level of the last content line. -/
theorem ofTokens_inv {tokens : List Token} {laid : Layout}
    (laidOut : Layout.ofTokens tokens = .ok laid) :
    ∃ layout, Layout.ofLines 0 (Line.split tokens) = .ok layout ∧
      laid.tokens = layout.tokens ++ closingTokens layout.level (Token.lastLine tokens) := by
  obtain ⟨layout, laidLines, same⟩ := except_bind_ok_iff.mp laidOut
  cases same
  exact ⟨layout, laidLines, rfl⟩

/-- Statements are in as many blocks as their lines have levels exactly when their
    heads stand where their lines say. -/
theorem heads_stand_iff {levelOf : Nat → Nat} {program : Program}
    {others : List (Cursor × Token)}
    (fits : ∀ holds : Int → Nat → Prop, (∀ head ∈ others, HeadFits holds head) ↔
      ∀ place statement, program.Occurs place statement → holds place.depth statement.line) :
    (∀ head ∈ others, Stands levelOf head) ↔
      ∀ place statement, program.Occurs place statement →
        place.depth = levelOf statement.line := by
  have shape := (fits fun _ _ => True).mpr fun _ _ _ => trivial
  have exact := fits fun depth line => depth = levelOf line
  simp only [Int.natCast_inj] at exact
  rw [← exact]
  constructor
  · intro stand head isHead
    refine ⟨fun starts => ?_, (shape head isHead).2⟩
    rcases stand head isHead with deep | ⟨noStatement, _⟩
    · exact deep
    · exact absurd starts noStatement
  · intro fit head isHead
    by_cases starts : StartsStatement head.2
    · exact Or.inl ((fit head isHead).1 starts)
    · exact Or.inr ⟨starts, (fit head isHead).2 starts⟩

/-- In a program, every statement is in as many blocks as its line has levels of
    indentation exactly when the lines of the source are aligned. -/
theorem depth_eq_indents_iff {source : List UInt8} {program : Program} {tokens : List Token}
    (parses : (parsed source).outcome = .ok program) (scanned : Token.scan source = .ok tokens) :
    (∀ place statement, program.Occurs place statement →
        place.depth = indentsOn tokens statement.line) ↔
      Aligned 0 false (Line.split tokens) := by
  obtain ⟨_, laid, isScanned, laidOut, derived⟩ := (parsed_ok_iff source program).mp parses
  obtain rfl := Except.ok.inj (scanned.symm.trans isScanned)
  obtain ⟨layout, laidLines, isLaid⟩ := ofTokens_inv laidOut
  have numbered := numbered_scan scanned
  have measured := indentsOn_numbered numbered
  rw [Line.flatMap_split] at measured
  obtain ⟨first, others, isHeads, second, balanced, plain, fits⟩ := program_heads derived
  rw [isLaid, heads_append, heads_closingTokens, List.append_nil] at isHeads
  rw [isLaid, Cursor.run_append] at balanced plain
  have aligned := stands_iff_aligned numbered measured laidLines
    (show Cursor.start.Even 0 from ⟨rfl, rfl, rfl⟩)
  rw [isHeads, List.forall_mem_cons] at aligned
  rw [← heads_stand_iff fits]
  constructor
  · intro stand
    have unindented := first_level numbered measured laidLines isHeads second balanced plain stand
    exact aligned.mp ⟨Or.inl (by rw [unindented]; rfl), stand⟩
  · intro isAligned
    exact (aligned.mpr isAligned).2

/-- A function in a branch, and a chain that goes on after both have ended. -/
theorem depth_eq_indents_nested :
    let word (kind : Kind) (lexeme : String) (line : Nat) : Token := ⟨kind, lexeme, line⟩
    let name (lexeme : String) (line : Nat) : Token := word .identifier lexeme line
    let source := Utf8.encode
      "from GoType import *\nif x:\n    def f():\n        y = 1\nelse:\n    z = 2\n"
    let tokens : List Token :=
      [word .fromWord "from" 1, name "GoType" 1, word .importWord "import" 1, word .star "*" 1,
        .newline 1,
        word .ifWord "if" 2, name "x" 2, word .colon ":" 2, .newline 2,
        .indent 3, word .defWord "def" 3, name "f" 3, word .leftParen "(" 3,
        word .rightParen ")" 3, word .colon ":" 3, .newline 3,
        .indent 4, .indent 4, name "y" 4, word .assign "=" 4, word .intLiteral "1" 4, .newline 4,
        word .elseWord "else" 5, word .colon ":" 5, .newline 5,
        .indent 6, name "z" 6, word .assign "=" 6, word .intLiteral "2" 6, .newline 6]
    let program : Program :=
      ⟨⟨name "GoType" 1, some (word .star "*" 1), 1⟩,
        [.ifChain
          [⟨word .ifWord "if" 2, ⟨⟨name "x" 2, none⟩, none⟩, ⟨2, [.hoisted 0 3]⟩⟩]
          (some ⟨5, [.manipulation (name "z" 6) ⟨word .intLiteral "2" 6, none⟩]⟩)],
        [⟨word .defWord "def" 3, name "f" 3, [], none,
          ⟨3, [.manipulation (name "y" 4) ⟨word .intLiteral "1" 4, none⟩]⟩⟩]⟩
    (parsed source).outcome = .ok program ∧ Token.scan source = .ok tokens ∧
      Aligned 0 false (Line.split tokens) ∧
      ∀ place statement, program.Occurs place statement →
        place.depth = indentsOn tokens statement.line := by
  intro word name source tokens program
  have scanned : Token.scan source = .ok tokens := by
    dsimp only [source, tokens, name, word]
    cbv
  have parses : (parsed source).outcome = .ok program := by
    refine parsed_of_phases scanned rfl ?_
    dsimp only [tokens, program, name, word]
    cbv
  have aligned : Aligned 0 false (Line.split tokens) := by decide
  exact ⟨parses, scanned, aligned, (depth_eq_indents_iff parses scanned).mpr aligned⟩

/-- A body that is not indented, and a line after it that is: the two make up for each
    other, and a statement of the outermost level is in the loop. -/
theorem depth_ne_indents_balanced :
    let word (kind : Kind) (lexeme : String) (line : Nat) : Token := ⟨kind, lexeme, line⟩
    let name (lexeme : String) (line : Nat) : Token := word .identifier lexeme line
    let assignment (lexeme value : String) (line : Nat) : Statement :=
      .manipulation (name lexeme line) ⟨word .intLiteral value line, none⟩
    let source := Utf8.encode "from GoType import *\nwhile x:\ny = 1\n    z = 2\nw = 3\n"
    let tokens : List Token :=
      [word .fromWord "from" 1, name "GoType" 1, word .importWord "import" 1, word .star "*" 1,
        .newline 1,
        word .whileWord "while" 2, name "x" 2, word .colon ":" 2, .newline 2,
        name "y" 3, word .assign "=" 3, word .intLiteral "1" 3, .newline 3,
        .indent 4, name "z" 4, word .assign "=" 4, word .intLiteral "2" 4, .newline 4,
        name "w" 5, word .assign "=" 5, word .intLiteral "3" 5, .newline 5]
    let body : Block Statement := ⟨2, [assignment "y" "1" 3, assignment "z" "2" 4]⟩
    let program : Program :=
      ⟨⟨name "GoType" 1, some (word .star "*" 1), 1⟩,
        [.whileLoop (word .whileWord "while" 2) ⟨⟨name "x" 2, none⟩, none⟩ body,
          assignment "w" "3" 5], []⟩
    (parsed source).outcome = .ok program ∧ Token.scan source = .ok tokens ∧
      ∃ place statement, program.Occurs place statement ∧
        place.depth = 1 ∧ indentsOn tokens statement.line = 0 := by
  intro word name assignment source tokens body program
  have scanned : Token.scan source = .ok tokens := by
    dsimp only [source, tokens, name, word]
    cbv
  have parses : (parsed source).outcome = .ok program := by
    refine parsed_of_phases scanned rfl ?_
    dsimp only [tokens, program, body, assignment, name, word]
    cbv
  refine ⟨parses, scanned, .inBlock (.top []) none [], assignment "y" "1" 3, ?_, rfl, by decide⟩
  exact ⟨[], _, _, rfl, .single (.block (.top []) _ none body [] [assignment "z" "2" 4] _
    (by simp [Statement.blocks]) rfl)⟩

end Offside
