import Offside.Compile
import Offside.Proofs.Layout.Numbering
import Offside.Proofs.Traced

/-!
# Rises and block ends

Layout drops the indentation of a line and puts one block end before its content for every
level that is lost. What comes out is the tokens that went in, without indentation, with the
block ends among them and a line break at the end.

A line rises by one level at most, so the levels can be counted: at any content the rises so
far, less the block ends so far, are the level of its line. In the end everything is closed,
and there are as many block ends as rises.
-/

namespace Offside

/-- Tokens without indentation. -/
def withoutIndents (tokens : List Token) : List Token :=
  tokens.filter fun token => token.kind != .indent

/-- Tokens without block ends. -/
def withoutCloses (tokens : List Token) : List Token :=
  tokens.filter fun token => token.kind != .closeBlock

/-- The number of block ends. -/
def closes (tokens : List Token) : Nat :=
  tokens.countP fun token => token.kind == .closeBlock

/-- How many content lines are deeper than the content line before them. Before the first
    line, the level is `level`. -/
def rises (level : Nat) : List Line → Nat
  | [] => 0
  | line :: lines =>
      if line.content = [] then rises level lines
      else (if level < line.level then 1 else 0) + rises line.level lines

/-- Block ends are counted piece by piece, so two stretches have as many as both have together. -/
@[simp]
theorem closes_append (first second : List Token) :
    closes (first ++ second) = closes first + closes second :=
  List.countP_append

/-- Block ends are left out piece by piece, so what is left of two stretches is what is left of the
    first and then of the second. -/
@[simp]
theorem withoutCloses_append (first second : List Token) :
    withoutCloses (first ++ second) = withoutCloses first ++ withoutCloses second :=
  List.filter_append ..

/-- A row of block ends counts by its length, since there is nothing else in it. -/
@[simp]
theorem closes_replicate (count number : Nat) :
    closes (List.replicate count (Token.closeBlock number)) = count := by
  simp [closes, Token.closeBlock, List.countP_replicate]

/-- Nothing is left of a row of block ends when these are left out. -/
@[simp]
theorem withoutCloses_replicate (count number : Nat) :
    withoutCloses (List.replicate count (Token.closeBlock number)) = [] := by
  simp [withoutCloses, Token.closeBlock]

/-- Tokens without a block end among them. -/
def Closeless (tokens : List Token) : Prop :=
  ∀ token ∈ tokens, token.kind ≠ .closeBlock

/-- Where there is no block end, none is counted. That is how the tokens come from scanning. -/
theorem Closeless.closes {tokens : List Token} (closeless : Closeless tokens) :
    closes tokens = 0 := by
  rw [Offside.closes, List.countP_eq_zero]
  intro token member
  simpa using closeless token member

/-- Where there is no block end, none is left out, so the tokens stay as they are. -/
theorem Closeless.withoutCloses {tokens : List Token} (closeless : Closeless tokens) :
    withoutCloses tokens = tokens := by
  rw [Offside.withoutCloses, List.filter_eq_self]
  intro token member
  simpa using closeless token member

/-- A token of two lists stands in the first or in the second. -/
theorem cut_append {first second before after : List Token} {token : Token}
    (cut : first ++ second = before ++ token :: after) :
    (∃ right, first = before ++ token :: right ∧ after = right ++ second) ∨
      ∃ left, second = left ++ token :: after ∧ before = first ++ left := by
  rcases List.append_eq_append_iff.mp cut with ⟨left, rfl, rest⟩ | ⟨right, rfl, rest⟩
  · exact .inr ⟨left, rest, rfl⟩
  · cases right with
    | nil => exact .inr ⟨[], rest.symm, by simp⟩
    | cons found right =>
        obtain ⟨rfl, rfl⟩ := List.cons.inj rest
        exact .inl ⟨right, rfl, rfl⟩

/-- A token among block ends is one of them. Before and after it are block ends only, all on the
    same line. -/
theorem cut_replicate {count number : Nat} {before after : List Token} {token : Token}
    (cut : List.replicate count (Token.closeBlock number) = before ++ token :: after) :
    token = Token.closeBlock number ∧ withoutCloses before = [] ∧
      ∃ further, after = List.replicate further (Token.closeBlock number) := by
  obtain ⟨-, isBefore, rest⟩ := List.replicate_eq_append_iff.mp cut
  rw [List.length_cons, List.replicate_succ] at rest
  obtain ⟨isClose, isAfter⟩ := List.cons.inj rest
  rw [isBefore]
  exact ⟨isClose, withoutCloses_replicate _ number, after.length, isAfter⟩

/-! ## Lines of a token list -/

namespace Line

/-- Only a line break ends a line, by induction on the tokens that are cut. -/
theorem ending_of_mem_split {tokens : List Token} {line : Line} (isLine : line ∈ split tokens)
    {token : Token} (ends : token ∈ line.ending) : token.kind = .newline := by
  induction tokens generalizing line with
  | nil =>
      obtain rfl := List.mem_singleton.mp isLine
      cases ends
  | cons first rest ih =>
      rw [split] at isLine
      by_cases isBreak : first.kind = .newline
      · rw [if_pos isBreak] at isLine
        rcases List.mem_cons.mp isLine with rfl | isLater
        · cases ends
          exact isBreak
        · exact ih isLater ends
      · rw [if_neg isBreak] at isLine
        cases cut : split rest with
        | nil => exact absurd cut (split_ne_nil rest)
        | cons next lines =>
            rw [cut] at isLine ih
            rcases List.mem_cons.mp isLine with rfl | isLater
            · exact ih List.mem_cons_self ends
            · exact ih (List.mem_cons_of_mem next isLater) ends

/-- The tokens of a line are tokens of the list, for cutting loses none and makes none up. -/
theorem all_of_mem_split {tokens : List Token} {line : Line} (isLine : line ∈ split tokens)
    {token : Token} (member : token ∈ line.all) : token ∈ tokens := by
  rw [← flatMap_split tokens]
  exact List.mem_flatMap.mpr ⟨line, isLine, member⟩

/-- What layout keeps of a line is the line without its indentation. The line break is no
    indentation, so it stays. -/
theorem unindented_eq {tokens : List Token} {line : Line} (isLine : line ∈ split tokens) :
    line.unindented = withoutIndents line.all := by
  have kept : withoutIndents line.ending.toList = line.ending.toList := by
    rw [withoutIndents, List.filter_eq_self]
    intro token member
    simp [ending_of_mem_split isLine (Option.mem_toList.mp member)]
  rw [all, withoutIndents, List.filter_append, ← withoutIndents, ← withoutIndents, kept]
  rfl

/-- What is left of the lines is what is left of the tokens. -/
theorem flatMap_unindented (tokens : List Token) :
    (split tokens).flatMap unindented = withoutIndents tokens := by
  have lines : (split tokens).map unindented =
      (split tokens).map fun line => withoutIndents line.all :=
    List.map_congr_left fun line isLine => unindented_eq isLine
  conv_rhs => rw [← flatMap_split tokens, withoutIndents, List.filter_flatMap]
  rw [List.flatMap_def, lines, List.flatMap_def]
  rfl

/-- If the list has no block end, no line of it has one, with or without its indentation. -/
theorem closeless_unindented {tokens : List Token} (closeless : Closeless tokens) {line : Line}
    (isLine : line ∈ split tokens) : Closeless line.unindented := by
  rw [unindented_eq isLine]
  intro token member
  exact closeless token (all_of_mem_split isLine (List.mem_filter.mp member).1)

/-! ## Lines one by one -/

/-- The level that a line leaves for the lines after it. -/
def levelAfter (level : Nat) (line : Line) : Nat :=
  if line.content = [] then level else line.level

/-- The block ends before the content of a line, if the content line before it has level
    `level`. -/
def closing (level : Nat) (line : Line) : List Token :=
  match line.content with
  | [] => []
  | first :: _ => List.replicate (level - line.level) (Token.closeBlock first.line)

/-- A line after layout. -/
def laid (level : Nat) (line : Line) : List Token :=
  line.closing level ++ line.unindented

/-- Lines after layout, each at the level that the lines before it leave. -/
def laidAll (level : Nat) : List Line → List Token
  | [] => []
  | line :: lines => line.laid level ++ laidAll (line.levelAfter level) lines

/-- The line is at most one level deeper than the content line before it. -/
def Climbs (level : Nat) (line : Line) : Prop :=
  line.levelAfter level ≤ level + 1

/-- No line is more than one level deeper than the content line before it. -/
def ClimbsAll (level : Nat) : List Line → Prop
  | [] => True
  | line :: lines => line.Climbs level ∧ ClimbsAll (line.levelAfter level) lines

/-- The rises from a line on are the rise to that line, if there is one, and those of the lines
    after it. A line without content counts as one that leaves the level alone. -/
theorem rises_cons (level : Nat) (line : Line) (lines : List Line) :
    rises level (line :: lines) =
      (if level < line.levelAfter level then 1 else 0) + rises (line.levelAfter level) lines := by
  by_cases blank : line.content = []
  · simp [rises, levelAfter, blank]
  · simp [rises, levelAfter, blank]

/-- All that layout puts in front of a line is block ends. -/
theorem withoutCloses_closing (level : Nat) (line : Line) :
    withoutCloses (line.closing level) = [] := by
  cases content : line.content with
  | nil => simp [closing, content, withoutCloses]
  | cons first others => simp [closing, content]

/-- On one line, the level and the rise to it pay for the block ends. -/
theorem level_closing {level : Nat} {line : Line} (climbs : line.Climbs level) :
    level + (if level < line.levelAfter level then 1 else 0) =
      line.levelAfter level + closes (line.closing level) := by
  unfold Climbs at climbs
  cases content : line.content with
  | nil => simp [levelAfter, closing, content, closes]
  | cons first others =>
      simp only [levelAfter, content, reduceCtorEq, if_false, closing, closes_replicate] at climbs ⊢
      split <;> omega

/-- Lines in two parts climb by one level at most exactly if both parts do, the second from the
    level that the first has led to. The induction is on the first part. -/
theorem climbsAll_append {level : Nat} {lines others : List Line} :
    ClimbsAll level (lines ++ others) ↔
      ClimbsAll level lines ∧ ClimbsAll (lines.foldl levelAfter level) others := by
  induction lines generalizing level with
  | nil => simp [ClimbsAll]
  | cons line lines ih => simp [ClimbsAll, ih, and_assoc]

/-- The rises of two parts add up, if the second is counted from the level that the first has led
    to. -/
theorem rises_append (level : Nat) (lines others : List Line) :
    rises level (lines ++ others) =
      rises level lines + rises (lines.foldl levelAfter level) others := by
  induction lines generalizing level with
  | nil => simp [rises]
  | cons line lines ih =>
      simp only [List.cons_append, rises_cons, ih, List.foldl_cons, Nat.add_assoc]

/-- Layout takes the lines one by one, and goes through if each of them climbs by one level
    at most. -/
theorem ofLines_laid {level : Nat} {lines : List Line} {layout : Layout}
    (laidOut : Layout.ofLines level lines = .ok layout) :
    ClimbsAll level lines ∧
      layout = ⟨laidAll level lines, lines.foldl levelAfter level, rises level lines⟩ := by
  induction lines generalizing level layout with
  | nil =>
      cases laidOut
      exact ⟨trivial, rfl⟩
  | cons line lines ih =>
      rw [Layout.ofLines] at laidOut
      cases content : line.content with
      | nil =>
          rw [content] at laidOut
          obtain ⟨later, laidLater, same⟩ := except_bind_ok_iff.mp laidOut
          obtain ⟨climbs, rfl⟩ := ih laidLater
          cases same
          simp [ClimbsAll, Climbs, levelAfter, laidAll, laid, closing, rises, content, climbs]
      | cons first others =>
          rw [content] at laidOut
          dsimp only at laidOut
          by_cases tooDeep : level + 1 < line.level
          · rw [if_pos tooDeep] at laidOut
            cases laidOut
          · rw [if_neg tooDeep] at laidOut
            obtain ⟨later, laidLater, same⟩ := except_bind_ok_iff.mp laidOut
            obtain ⟨climbs, rfl⟩ := ih laidLater
            cases same
            have oneStep : line.level ≤ level + 1 := Nat.le_of_not_lt tooDeep
            simp [ClimbsAll, Climbs, levelAfter, laidAll, laid, closing, rises, content, climbs,
              oneStep, Nat.add_comm]

/-! ## Counting along the lines -/

section Counting

variable {lines : List Line} (closeless : ∀ line ∈ lines, Closeless line.unindented)

include closeless

/-- The rises so far, less the block ends so far, are the level that is reached. -/
theorem level_rises {level : Nat} (climbs : ClimbsAll level lines) :
    level + rises level lines = lines.foldl levelAfter level + closes (laidAll level lines) := by
  induction lines generalizing level with
  | nil => simp [rises, laidAll, closes]
  | cons line lines ih =>
      rw [List.forall_mem_cons] at closeless
      have here := level_closing climbs.1
      have later := ih closeless.2 climbs.2
      rw [rises_cons, List.foldl_cons, laidAll, laid, closes_append, closes_append,
        closeless.1.closes]
      omega

/-- Block ends are all that is added to the lines. By induction on them, what is left without the
    block ends is what layout keeps of each line. -/
theorem withoutCloses_laidAll (level : Nat) :
    withoutCloses (laidAll level lines) = lines.flatMap unindented := by
  induction lines generalizing level with
  | nil => rfl
  | cons line lines ih =>
      rw [List.forall_mem_cons] at closeless
      rw [laidAll, laid, withoutCloses_append, withoutCloses_append, withoutCloses_closing,
        List.nil_append, closeless.1.withoutCloses, ih closeless.2, List.flatMap_cons]

end Counting

/-- The rises up to a content line are its level and the block ends up to its content. -/
theorem rises_content {earlier : List Line} {line : Line}
    (closeless : ∀ line ∈ earlier, Closeless line.unindented)
    (climbs : ClimbsAll 0 (earlier ++ [line])) (content : line.content ≠ []) :
    rises 0 (earlier ++ [line]) = line.level +
      closes (laidAll 0 earlier ++ line.closing (earlier.foldl levelAfter 0)) := by
  obtain ⟨before, here, -⟩ := climbsAll_append.mp climbs
  have counted := level_rises closeless before
  have paid := level_closing here
  have level : line.levelAfter (earlier.foldl levelAfter 0) = line.level := if_neg content
  rw [rises_append, rises_cons, closes_append, rises]
  omega

/-- A token of the lines after layout is one of a line after layout. -/
theorem laidAll_cut {level : Nat} {lines : List Line} {before after : List Token} {token : Token}
    (cut : laidAll level lines = before ++ token :: after) :
    ∃ earlier line later left right, lines = earlier ++ line :: later ∧
      line.laid (earlier.foldl levelAfter level) = left ++ token :: right ∧
      before = laidAll level earlier ++ left ∧
      after = right ++ laidAll ((earlier ++ [line]).foldl levelAfter level) later := by
  induction lines generalizing level before with
  | nil => simp [laidAll] at cut
  | cons line lines ih =>
      rcases cut_append cut with ⟨right, isLaid, rfl⟩ | ⟨left, rest, rfl⟩
      · exact ⟨[], line, lines, before, right, rfl, isLaid, rfl, rfl⟩
      · obtain ⟨earlier, found, later, left, right, rfl, isLaid, rfl, rfl⟩ := ih rest
        exact ⟨line :: earlier, found, later, left, right, rfl, isLaid, by simp [laidAll],
          by simp⟩

/-- What is neither a line break nor a block end is content of its line. -/
theorem laid_content {tokens : List Token} {level : Nat} {line : Line}
    (isLine : line ∈ split tokens) {left right : List Token} {token : Token}
    (cut : line.laid level = left ++ token :: right) (noBreak : token.kind ≠ .newline)
    (noClose : token.kind ≠ .closeBlock) :
    ∃ inside others, left = line.closing level ++ inside ∧
      line.content = inside ++ token :: others := by
  rcases cut_append cut with ⟨others, isClosing, -⟩ | ⟨inside, isUnindented, rfl⟩
  · have isClose : token ∈ line.closing level := by simp [isClosing]
    cases content : line.content with
    | nil => simp [closing, content] at isClose
    | cons first others =>
        rw [closing, content] at isClose
        rw [List.eq_of_mem_replicate isClose] at noClose
        exact absurd rfl noClose
  · rcases cut_append isUnindented with ⟨others, isContent, -⟩ | ⟨others, isEnding, -⟩
    · exact ⟨inside, others, rfl, isContent⟩
    · have ends : token ∈ line.ending.toList := by simp [isEnding]
      exact absurd (ending_of_mem_split isLine (Option.mem_toList.mp ends)) noBreak

/-- A block end stands before the content of its line, with nothing but block ends
    between, and has the number of that content. -/
theorem laid_close {level : Nat} {line : Line} (closeless : Closeless line.unindented)
    {left right : List Token} {token : Token} (cut : line.laid level = left ++ token :: right)
    (isClose : token.kind = .closeBlock) :
    ∃ first others count, line.content = first :: others ∧
      token = Token.closeBlock first.line ∧ withoutCloses left = [] ∧
      right = List.replicate count (Token.closeBlock first.line) ++
        first :: (others ++ line.ending.toList) := by
  rcases cut_append cut with ⟨others, isClosing, rfl⟩ | ⟨inside, isUnindented, rfl⟩
  · cases content : line.content with
    | nil => simp [closing, content] at isClosing
    | cons first more =>
        rw [closing, content] at isClosing
        obtain ⟨isClose, noOther, count, rfl⟩ := cut_replicate isClosing
        exact ⟨first, more, count, rfl, isClose, noOther, by simp [unindented, content]⟩
  · have member : token ∈ line.unindented := by simp [isUnindented]
    exact absurd isClose (closeless token member)

end Line

/-! ## Token lists -/

/-- The token is content of a line: `earlier` are the lines before that line, and `left` is
    the content before the token in it. -/
structure StandsIn (tokens : List Token) (earlier : List Line) (line : Line) (left : List Token)
    (token : Token) : Prop where
  isLine : ∃ later, Line.split tokens = earlier ++ line :: later
  isContent : ∃ right, line.content = left ++ token :: right

/-- Layout of a token list, written out: its lines climb by one level at most, the rises are what is
    reported, and the tokens are those of the lines with everything closed behind them. -/
theorem ofTokens_laid {tokens : List Token} {layout : Layout}
    (laidOut : Layout.ofTokens tokens = .ok layout) :
    Line.ClimbsAll 0 (Line.split tokens) ∧ layout.opened = rises 0 (Line.split tokens) ∧
      layout.tokens = Line.laidAll 0 (Line.split tokens) ++
        (List.replicate ((Line.split tokens).foldl Line.levelAfter 0)
          (Token.closeBlock (Token.lastLine tokens)) ++
          [Token.newline (Token.lastLine tokens)]) := by
  obtain ⟨lines, laidLines, same⟩ := except_bind_ok_iff.mp laidOut
  obtain ⟨climbs, rfl⟩ := Line.ofLines_laid laidLines
  cases same
  exact ⟨climbs, rfl, rfl⟩

/-- The number of rises is reported with the layout of a source. -/
theorem laidOut_reports {source : List UInt8} {tokens : List Token} {layout : Layout}
    (scans : Token.scan source = .ok tokens) (laidOut : Layout.ofTokens tokens = .ok layout) :
    Event.laidOut layout.tokens.length layout.opened ∈ (Offside.laidOut source).events := by
  have run : Offside.laidOut source #[] = .ok layout.tokens
      #[.scanned tokens.length (1 + tokens.countP fun token => token.kind == .newline),
        .laidOut layout.tokens.length layout.opened] := by
    simp only [Offside.laidOut, scanned, Traced.bind_ok_iff, Traced.lift_ok_iff]
    exact ⟨tokens, _, ⟨tokens, _, ⟨scans, rfl⟩, (), _, rfl, rfl⟩, layout, _, ⟨laidOut, rfl⟩, (), _,
      rfl, rfl⟩
  simp [Traced.events, EStateM.run, run]

section Layout

variable {tokens : List Token} {layout : Layout} (closeless : Closeless tokens)
  (laidOut : Layout.ofTokens tokens = .ok layout)

include closeless laidOut

/-- Without its block ends a layout is the tokens without their indentation, and the line break that
    is put at the end. -/
theorem withoutCloses_layout :
    withoutCloses layout.tokens =
      withoutIndents tokens ++ [Token.newline (Token.lastLine tokens)] := by
  obtain ⟨-, -, isLaid⟩ := ofTokens_laid laidOut
  have lines := Line.withoutCloses_laidAll
    (fun line isLine => Line.closeless_unindented closeless isLine) 0
  have ending : withoutCloses [Token.newline (Token.lastLine tokens)] =
      [Token.newline (Token.lastLine tokens)] := rfl
  rw [isLaid, withoutCloses_append, withoutCloses_append, withoutCloses_replicate,
    List.nil_append, lines, Line.flatMap_unindented, ending]

/-- Everything that rises is closed in the end, at a later line that is less deep or at the end of
    the source. -/
theorem closes_layout : closes layout.tokens = rises 0 (Line.split tokens) := by
  obtain ⟨climbs, -, isLaid⟩ := ofTokens_laid laidOut
  have counted := Line.level_rises
    (fun line isLine => Line.closeless_unindented closeless isLine) climbs
  have ending : closes [Token.newline (Token.lastLine tokens)] = 0 := rfl
  rw [isLaid, closes_append, closes_append, closes_replicate, ending]
  omega

/-- At content, the rises so far are the level and the block ends so far. -/
theorem layout_content {before after : List Token} {token : Token}
    (cut : layout.tokens = before ++ token :: after) (noBreak : token.kind ≠ .newline)
    (noClose : token.kind ≠ .closeBlock) :
    ∃ earlier line left, StandsIn tokens earlier line left token ∧
      withoutCloses before = earlier.flatMap Line.unindented ++ left ∧
      rises 0 (earlier ++ [line]) = line.level + closes before := by
  obtain ⟨climbs, -, isLaid⟩ := ofTokens_laid laidOut
  rw [isLaid] at cut
  rcases cut_append cut with ⟨right, inLines, -⟩ | ⟨left, atEnd, -⟩
  · obtain ⟨earlier, line, later, left, right, lines, inLine, rfl, -⟩ := Line.laidAll_cut inLines
    have isLine : line ∈ Line.split tokens := by simp [lines]
    obtain ⟨inside, others, rfl, isContent⟩ := Line.laid_content isLine inLine noBreak noClose
    have earlierCloseless : ∀ line ∈ earlier, Closeless line.unindented := fun line member =>
      Line.closeless_unindented closeless (by simp [lines, member])
    have lineCloseless := Line.closeless_unindented closeless isLine
    have insideCloseless : Closeless inside := fun token member =>
      lineCloseless token (by simp [Line.unindented, isContent, member])
    refine ⟨earlier, line, inside, ⟨⟨later, lines⟩, others, isContent⟩, ?_, ?_⟩
    · rw [withoutCloses_append, withoutCloses_append, Line.withoutCloses_laidAll earlierCloseless,
        Line.withoutCloses_closing, List.nil_append, insideCloseless.withoutCloses]
    · rw [lines, List.append_cons, Line.climbsAll_append] at climbs
      have counted := Line.rises_content earlierCloseless climbs.1 (by simp [isContent])
      rw [counted, ← List.append_assoc, closes_append _ inside, insideCloseless.closes,
        Nat.add_zero]
  · rcases cut_append atEnd with ⟨right, amongCloses, -⟩ | ⟨left, ends, -⟩
    · rw [(cut_replicate amongCloses).1] at noClose
      exact absurd rfl noClose
    · have isEnd : token ∈ [Token.newline (Token.lastLine tokens)] := by simp [ends]
      rw [List.mem_singleton.mp isEnd] at noBreak
      exact absurd rfl noBreak

/-- A block end stands before the first content of a line, or before the end. -/
theorem layout_close {before after : List Token} {token : Token}
    (cut : layout.tokens = before ++ token :: after) (isClose : token.kind = .closeBlock) :
    (∃ earlier line first count rest, StandsIn tokens earlier line [] first ∧
      withoutCloses before = earlier.flatMap Line.unindented ∧
      token = Token.closeBlock first.line ∧
      after = List.replicate count (Token.closeBlock first.line) ++ first :: rest) ∨
    ∃ count, token = Token.closeBlock (Token.lastLine tokens) ∧
      after = List.replicate count (Token.closeBlock (Token.lastLine tokens)) ++
        [Token.newline (Token.lastLine tokens)] := by
  obtain ⟨-, -, isLaid⟩ := ofTokens_laid laidOut
  rw [isLaid] at cut
  rcases cut_append cut with ⟨right, inLines, rfl⟩ | ⟨left, atEnd, rfl⟩
  · left
    obtain ⟨earlier, line, later, left, right, lines, inLine, rfl, rfl⟩ :=
      Line.laidAll_cut inLines
    have isLine : line ∈ Line.split tokens := by simp [lines]
    have earlierCloseless : ∀ line ∈ earlier, Closeless line.unindented := fun line member =>
      Line.closeless_unindented closeless (by simp [lines, member])
    obtain ⟨first, others, count, isContent, isToken, noOther, rfl⟩ :=
      Line.laid_close (Line.closeless_unindented closeless isLine) inLine isClose
    have same : withoutCloses (Line.laidAll 0 earlier ++ left) =
        earlier.flatMap Line.unindented := by
      rw [withoutCloses_append, Line.withoutCloses_laidAll earlierCloseless, noOther,
        List.append_nil]
    simp only [List.append_assoc, List.cons_append]
    exact ⟨earlier, line, first, count, _, ⟨⟨later, lines⟩, others, isContent⟩, same, isToken, rfl⟩
  · right
    rcases cut_append atEnd with ⟨right, amongCloses, rfl⟩ | ⟨left, ends, -⟩
    · obtain ⟨isToken, -, count, rfl⟩ := cut_replicate amongCloses
      exact ⟨count, isToken, rfl⟩
    · have isEnd : token ∈ [Token.newline (Token.lastLine tokens)] := by simp [ends]
      rw [List.mem_singleton.mp isEnd] at isClose
      cases isClose

end Layout

/-- What layout does to a token list that has no block ends yet. The tokens stay, without
    indentation. At content, the rises so far are the level of its line and the block ends so
    far. A block end stands before the first content of a line, or at the end. There is a
    block end for each rise, and this is the number that is reported. -/
theorem layout_balance {tokens : List Token} {layout : Layout} (closeless : Closeless tokens)
    (laidOut : Layout.ofTokens tokens = .ok layout) :
    withoutCloses layout.tokens =
      withoutIndents tokens ++ [Token.newline (Token.lastLine tokens)] ∧
    (∀ before token after, layout.tokens = before ++ token :: after →
      token.kind ≠ .newline → token.kind ≠ .closeBlock →
        ∃ earlier line left, StandsIn tokens earlier line left token ∧
          withoutCloses before = earlier.flatMap Line.unindented ++ left ∧
          rises 0 (earlier ++ [line]) = line.level + closes before) ∧
    (∀ before token after, layout.tokens = before ++ token :: after → token.kind = .closeBlock →
      (∃ earlier line first count rest, StandsIn tokens earlier line [] first ∧
        withoutCloses before = earlier.flatMap Line.unindented ∧
        token = Token.closeBlock first.line ∧
        after = List.replicate count (Token.closeBlock first.line) ++ first :: rest) ∨
      ∃ count, token = Token.closeBlock (Token.lastLine tokens) ∧
        after = List.replicate count (Token.closeBlock (Token.lastLine tokens)) ++
          [Token.newline (Token.lastLine tokens)]) ∧
    closes layout.tokens = rises 0 (Line.split tokens) ∧
    layout.opened = rises 0 (Line.split tokens) ∧
    ∀ source, Token.scan source = .ok tokens →
      Event.laidOut layout.tokens.length (closes layout.tokens) ∈
        (Offside.laidOut source).events := by
  have opened : layout.opened = rises 0 (Line.split tokens) := (ofTokens_laid laidOut).2.1
  have closed := closes_layout closeless laidOut
  refine ⟨withoutCloses_layout closeless laidOut,
    fun _ _ _ cut noBreak noClose => layout_content closeless laidOut cut noBreak noClose,
    fun _ _ _ cut isClose => layout_close closeless laidOut cut isClose, closed, opened, ?_⟩
  intro source scans
  rw [closed, ← opened]
  exact laidOut_reports scans laidOut

/-- Two levels that are lost at once, a line without content, and a last line that is
    indented and has no line break. -/
theorem layout_balance_drop :
    let word (lexeme : String) (line : Nat) : Token := ⟨.identifier, lexeme, line⟩
    let colon (line : Nat) : Token := ⟨.colon, ":", line⟩
    let tokens : List Token :=
      [word "a" 1, colon 1, .newline 1, .indent 2, word "b" 2, colon 2, .newline 2,
        .indent 3, .newline 3, .indent 4, .indent 4, word "c" 4, .newline 4,
        word "d" 5, colon 5, .newline 5, .indent 6, word "e" 6]
    ∃ layout, Closeless tokens ∧ Layout.ofTokens tokens = .ok layout ∧
      layout.tokens =
        [word "a" 1, colon 1, .newline 1, word "b" 2, colon 2, .newline 2, .newline 3,
          word "c" 4, .newline 4, .closeBlock 5, .closeBlock 5, word "d" 5, colon 5, .newline 5,
          word "e" 6, .closeBlock 6, .newline 6] ∧
      withoutCloses layout.tokens = withoutIndents tokens ++ [.newline 6] ∧
      closes layout.tokens = 3 ∧ rises 0 (Line.split tokens) = 3 := by
  intro word colon tokens
  have closeless : Closeless tokens := by
    unfold Closeless
    decide
  obtain ⟨layout, laidOut⟩ : ∃ layout, Layout.ofTokens tokens = .ok layout := ⟨_, rfl⟩
  obtain ⟨same, -, -, closed, -, -⟩ := layout_balance closeless laidOut
  have counted : rises 0 (Line.split tokens) = 3 := by decide
  refine ⟨layout, closeless, laidOut, ?_, same, closed.trans counted, counted⟩
  cases laidOut
  rfl

end Offside
