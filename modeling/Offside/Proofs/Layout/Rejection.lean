import Mathlib.Data.List.Induction
import Offside.Proofs.Layout.Balance

/-!
# Lines that skip a level

Layout remembers the level of the last content line, through any number of blank lines and
through drops of any size. It gives up at a line that stands two or more levels deeper than
that, at the first such line, and at no other one. The failure stands on the line of the
first content there and names both levels.

The lines before are looked at as they are: their last content line is found by leaving out
the blank ones, and no level is carried along.
-/

namespace Offside

/-- The level of the last line with content. Before all content the level is zero. -/
def lastLevel (lines : List Line) : Nat :=
  ((lines.filter fun line => !line.content.isEmpty).getLast?.map Line.level).getD 0

/-- A content line that is at least two levels deeper than the last content line before it. -/
structure SkipsLevel (earlier : List Line) (line : Line) : Prop where
  content : line.content ≠ []
  skips : lastLevel earlier + 2 ≤ line.level

/-- The line after `earlier` skips a level, and no line before it does. -/
structure FirstSkip (lines earlier : List Line) (line : Line) : Prop where
  isLine : ∃ later, lines = earlier ++ line :: later
  skips : SkipsLevel earlier line
  first : ∀ sooner between rest, earlier = sooner ++ between :: rest →
    ¬ SkipsLevel sooner between

/-- A step that only turns a value into another fails as the step before it. -/
theorem except_bind_pure_error_iff {α β : Type} {first : Except Failure α} {next : α → β}
    {failure : Failure} :
    (first >>= fun value => pure (next value)) = .error failure ↔ first = .error failure := by
  cases first with
  | ok value => simp [bind, Except.bind, pure, Except.pure]
  | error found => simp [bind, Except.bind]

namespace Line

/-- The level that is carried along is the level of the last content line. -/
theorem foldl_levelAfter (lines : List Line) : lines.foldl levelAfter 0 = lastLevel lines := by
  induction lines using List.reverseRecOn with
  | nil => rfl
  | append_singleton lines line ih =>
      rw [List.foldl_append, List.foldl_cons, List.foldl_nil, ih]
      by_cases blank : line.content = []
      · simp [levelAfter, lastLevel, List.filter_append, blank]
      · simp [levelAfter, lastLevel, List.filter_append, blank]

/-- A line climbs by one level at most exactly if it skips none. -/
theorem climbs_iff {earlier : List Line} {line : Line} :
    line.Climbs (earlier.foldl levelAfter 0) ↔ ¬ SkipsLevel earlier line := by
  rw [foldl_levelAfter, Climbs, levelAfter]
  by_cases blank : line.content = []
  · rw [if_pos blank]
    constructor
    · exact fun _ skips => skips.content blank
    · exact fun _ => Nat.le_succ _
  · rw [if_neg blank]
    constructor
    · intro climbs skips
      have := skips.skips
      omega
    · intro noSkip
      by_contra tooDeep
      exact noSkip ⟨blank, by omega⟩

/-- All lines climb by one level at most exactly if none of them skips a level. -/
theorem climbsAll_iff {lines : List Line} :
    ClimbsAll 0 lines ↔
      ∀ earlier line later, lines = earlier ++ line :: later → ¬ SkipsLevel earlier line := by
  induction lines using List.reverseRecOn with
  | nil => simp [ClimbsAll]
  | append_singleton lines last ih =>
      have lastClimbs : ClimbsAll (lines.foldl levelAfter 0) [last] ↔ ¬ SkipsLevel lines last := by
        rw [← climbs_iff]
        exact and_iff_left trivial
      rw [climbsAll_append, ih, lastClimbs]
      constructor
      · rintro ⟨before, here⟩ earlier line later split
        rcases later.eq_nil_or_concat with rfl | ⟨more, final, rfl⟩
        · obtain ⟨rfl, rfl⟩ := List.append_inj' split rfl |>.imp id List.singleton_inj.mp
          exact here
        · rw [List.concat_eq_append, ← List.cons_append, ← List.append_assoc] at split
          exact before earlier line more (List.append_inj' split rfl).1
      · intro all
        constructor
        · intro earlier line later split
          exact all earlier line (later ++ [last]) (by rw [split, List.append_assoc]; rfl)
        · exact all lines last [] rfl

/-- A line that climbs by one level at most is laid out, and the fault is one of the lines
    after it. -/
theorem ofLines_cons_error_iff {level : Nat} {line : Line} {lines : List Line} {failure : Failure}
    (climbs : line.Climbs level) :
    Layout.ofLines level (line :: lines) = .error failure ↔
      Layout.ofLines (line.levelAfter level) lines = .error failure := by
  rw [Layout.ofLines]
  cases content : line.content with
  | nil =>
      rw [levelAfter, if_pos content]
      exact except_bind_pure_error_iff
  | cons first others =>
      have noSkip : ¬ level + 1 < line.level := by
        simpa [Climbs, levelAfter, content, Nat.not_lt] using climbs
      have level : line.levelAfter level = line.level := by simp [levelAfter, content]
      dsimp only
      rw [if_neg noSkip, level]
      exact except_bind_pure_error_iff

/-- A line that climbs by more is the fault, whatever comes after it. -/
theorem ofLines_cons_skip {level : Nat} {line : Line} (lines : List Line)
    (skips : ¬ line.Climbs level) :
    ∃ first others, line.content = first :: others ∧ Layout.ofLines level (line :: lines) =
      .error ((LayoutFault.unexpectedIndent line.level level).onLine first.line) := by
  cases content : line.content with
  | nil => simp [Climbs, levelAfter, content] at skips
  | cons first others =>
      have tooDeep : level + 1 < line.level := by
        simpa [Climbs, levelAfter, content] using skips
      exact ⟨first, others, rfl, by simp [Layout.ofLines, content, tooDeep]⟩

/-- Layout of lines fails at the first line that climbs by more than one level. -/
theorem ofLines_error_iff {level : Nat} {lines : List Line} {failure : Failure} :
    Layout.ofLines level lines = .error failure ↔
      ∃ earlier line later, lines = earlier ++ line :: later ∧ ClimbsAll level earlier ∧
        ¬ line.Climbs (earlier.foldl levelAfter level) ∧
        ∃ first others, line.content = first :: others ∧
          failure = (LayoutFault.unexpectedIndent line.level
            (earlier.foldl levelAfter level)).onLine first.line := by
  induction lines generalizing level with
  | nil => simp [Layout.ofLines]
  | cons head lines ih =>
      by_cases climbs : head.Climbs level
      · rw [ofLines_cons_error_iff climbs, ih]
        constructor
        · rintro ⟨earlier, line, later, rfl, before, here⟩
          exact ⟨head :: earlier, line, later, rfl, ⟨climbs, before⟩, here⟩
        · rintro ⟨earlier, line, later, split, before, skips, here⟩
          cases earlier with
          | nil =>
              obtain ⟨rfl, -⟩ := List.cons.inj split
              exact absurd climbs skips
          | cons found earlier =>
              obtain ⟨rfl, rfl⟩ := List.cons.inj split
              exact ⟨earlier, line, later, rfl, before.2, skips, here⟩
      · obtain ⟨first, others, content, fails⟩ := ofLines_cons_skip lines climbs
        rw [fails]
        constructor
        · rintro ⟨⟩
          exact ⟨[], head, lines, rfl, trivial, climbs, first, others, content, rfl⟩
        · rintro ⟨earlier, line, later, split, before, -, found, more, isContent, rfl⟩
          cases earlier with
          | nil =>
              obtain ⟨rfl, -⟩ := List.cons.inj split
              obtain ⟨rfl, -⟩ := List.cons.inj (content.symm.trans isContent)
              rfl
          | cons found earlier =>
              obtain ⟨rfl, -⟩ := List.cons.inj split
              exact absurd before.1 climbs

end Line

/-- The lines before the first one that skips a level all climb by one level at most. -/
theorem firstSkip_iff {lines earlier : List Line} {line : Line} :
    FirstSkip lines earlier line ↔
      ∃ later, lines = earlier ++ line :: later ∧ Line.ClimbsAll 0 earlier ∧
        ¬ line.Climbs (earlier.foldl Line.levelAfter 0) := by
  rw [Line.climbs_iff, not_not, Line.climbsAll_iff]
  constructor
  · rintro ⟨⟨later, isLine⟩, skips, first⟩
    exact ⟨later, isLine, first, skips⟩
  · rintro ⟨later, isLine, first, skips⟩
    exact ⟨⟨later, isLine⟩, skips, first⟩

/-- A token list is laid out exactly if its lines are, and fails with the fault of its lines. -/
theorem ofTokens_error_iff {tokens : List Token} {failure : Failure} :
    Layout.ofTokens tokens = .error failure ↔
      Layout.ofLines 0 (Line.split tokens) = .error failure :=
  except_bind_pure_error_iff

/-- Layout of a token list fails exactly if one of its lines skips a level. The fault is the
    one of the first such line. It stands at the first content of that line, and names the level
    of the line and the level of the last content line before it. -/
theorem layout_rejects_iff (tokens : List Token) :
    ((∃ failure, Layout.ofTokens tokens = .error failure) ↔
        ∃ earlier line later, Line.split tokens = earlier ++ line :: later ∧
          SkipsLevel earlier line) ∧
      ∀ failure, Layout.ofTokens tokens = .error failure ↔
        ∃ earlier line first others, FirstSkip (Line.split tokens) earlier line ∧
          line.content = first :: others ∧
          failure = .parse ⟨["normalize"], first.line, "unexpected indent: level " ++
            toString line.level ++ " after level " ++ toString (lastLevel earlier)⟩ := by
  constructor
  · constructor
    · rintro ⟨failure, fails⟩
      obtain ⟨earlier, line, later, isLine, -, skips, -⟩ :=
        Line.ofLines_error_iff.mp (ofTokens_error_iff.mp fails)
      exact ⟨earlier, line, later, isLine, not_not.mp (mt Line.climbs_iff.mpr skips)⟩
    · rintro ⟨earlier, line, later, isLine, skips⟩
      cases laid : Layout.ofLines 0 (Line.split tokens) with
      | ok layout =>
          have climbs := (Line.ofLines_laid laid).1
          exact absurd skips (Line.climbsAll_iff.mp climbs earlier line later isLine)
      | error failure => exact ⟨failure, ofTokens_error_iff.mpr laid⟩
  · intro failure
    rw [ofTokens_error_iff, Line.ofLines_error_iff]
    constructor
    · rintro ⟨earlier, line, later, isLine, before, skips, first, others, content, rfl⟩
      have isFirst := firstSkip_iff.mpr ⟨later, isLine, before, skips⟩
      rw [Line.foldl_levelAfter]
      exact ⟨earlier, line, first, others, isFirst, content, rfl⟩
    · rintro ⟨earlier, line, first, others, isFirst, content, rfl⟩
      obtain ⟨later, isLine, before, skips⟩ := firstSkip_iff.mp isFirst
      rw [← Line.foldl_levelAfter]
      exact ⟨earlier, line, later, isLine, before, skips, first, others, content, rfl⟩

end Offside
