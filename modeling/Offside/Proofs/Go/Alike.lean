import Mathlib.Data.List.Forall2
import Offside.Proofs.Go.Form
import Offside.Proofs.Source.Formation
import Offside.Proofs.Source.RoundTrip

/-!
# Trees that are alike

Trees that cannot be told apart by their texts in Go. They have the same statements in
the same blocks, and at each leaf tokens that have one text; lines and import clauses
do not matter.

The indices of placeholders are not written, so the relation between them is a
parameter. It makes no difference: if the functions of both programs are numbered in the
order in which their definitions end, alike programs have the same numbers. The last
placeholder of a body is the function before its own, and the one before that comes as
many functions earlier as are defined inside the last.
-/

namespace Offside

open Grammar Go

/-- Both tokens are written in Go, and as one text. -/
def Token.Alike (token other : Token) : Prop :=
  ∃ text, Go.spelling? token = some text ∧ Go.spelling? other = some text

structure Expression.Alike (expression other : Expression) : Prop where
  left : expression.left.Alike other.left
  tail : Option.Rel (fun tail otherTail => tail.1.Alike otherTail.1 ∧ tail.2.Alike otherTail.2)
    expression.tail other.tail

structure Comparison.Alike (comparison other : Comparison) : Prop where
  left : comparison.left.Alike other.left
  tail : Option.Rel (fun tail otherTail => tail.1.Alike otherTail.1 ∧ tail.2.Alike otherTail.2)
    comparison.tail other.tail

inductive Value.Alike : Value → Value → Prop where
  | terminal {token other : Token} (leaf : token.Alike other) :
      Alike (.terminal token) (.terminal other)
  | call {callee other : Token} {arguments others : List Value} (name : callee.Alike other)
      (inside : List.Forall₂ Alike arguments others) :
      Alike (.call callee arguments) (.call other others)

structure Parameter.Alike (parameter other : Parameter) : Prop where
  name : parameter.name.Alike other.name
  type : parameter.type.Alike other.type

/-- The phrases have the same form and alike leaves, and `same` relates the indices of
    their placeholders. -/
inductive Grammar.Phrase.Alike (same : Nat → Nat → Prop) : Phrase → Phrase → Prop where
  | block {line otherLine : Nat} {list others : List Statement}
      (inside : Alike same (.statements list) (.statements others)) :
      Alike same (.block ⟨line, list⟩) (.block ⟨otherLine, others⟩)
  | chainEnd : Alike same (.continuation [] none) (.continuation [] none)
  | otherwise {body other : Block Statement} (inside : Alike same (.block body) (.block other)) :
      Alike same (.continuation [] (some body)) (.continuation [] (some other))
  | branch {keyword otherKeyword : Token} {condition otherCondition : Comparison}
      {body otherBody : Block Statement} {branches otherBranches : List (Branch Statement)}
      {last otherLast : Option (Block Statement)} (word : keyword.Alike otherKeyword)
      (compared : condition.Alike otherCondition)
      (inside : Alike same (.block body) (.block otherBody))
      (later : Alike same (.continuation branches last) (.continuation otherBranches otherLast)) :
      Alike same (.continuation (⟨keyword, condition, body⟩ :: branches) last)
        (.continuation (⟨otherKeyword, otherCondition, otherBody⟩ :: otherBranches) otherLast)
  | forRange {keyword counter start stop otherKeyword otherCounter otherStart otherStop : Token}
      {body other : Block Statement} (word : keyword.Alike otherKeyword)
      (name : counter.Alike otherCounter) (low : start.Alike otherStart)
      (high : stop.Alike otherStop) (inside : Alike same (.block body) (.block other)) :
      Alike same (.compound (.forRange keyword counter start stop body))
        (.compound (.forRange otherKeyword otherCounter otherStart otherStop other))
  | whileLoop {keyword otherKeyword : Token} {condition otherCondition : Comparison}
      {body other : Block Statement} (word : keyword.Alike otherKeyword)
      (compared : condition.Alike otherCondition)
      (inside : Alike same (.block body) (.block other)) :
      Alike same (.compound (.whileLoop keyword condition body))
        (.compound (.whileLoop otherKeyword otherCondition other))
  | ifChain {branches otherBranches : List (Branch Statement)}
      {last otherLast : Option (Block Statement)}
      (chain : Alike same (.continuation branches last) (.continuation otherBranches otherLast)) :
      Alike same (.compound (.ifChain branches last)) (.compound (.ifChain otherBranches otherLast))
  | declaration {name type otherName otherType : Token} {value other : Value}
      (named : name.Alike otherName) (typed : type.Alike otherType) (initial : value.Alike other) :
      Alike same (.compound (.declaration name type value))
        (.compound (.declaration otherName otherType other))
  | manipulation {target otherTarget : Token} {value other : Expression}
      (named : target.Alike otherTarget) (assigned : value.Alike other) :
      Alike same (.compound (.manipulation target value))
        (.compound (.manipulation otherTarget other))
  | call {callee otherCallee : Token} {arguments others : List Value}
      (called : (Value.call callee arguments).Alike (.call otherCallee others)) :
      Alike same (.compound (.call callee arguments)) (.compound (.call otherCallee others))
  | returnValue {keyword value otherKeyword other : Token} (word : keyword.Alike otherKeyword)
      (returned : value.Alike other) :
      Alike same (.compound (.returnValue keyword value))
        (.compound (.returnValue otherKeyword other))
  | hoisted {index line otherIndex otherLine : Nat} (numbers : same index otherIndex) :
      Alike same (.compound (.hoisted index line)) (.compound (.hoisted otherIndex otherLine))
  | nil : Alike same (.statements []) (.statements [])
  | cons {statement other : Statement} {list others : List Statement}
      (first : Alike same (.compound statement) (.compound other))
      (later : Alike same (.statements list) (.statements others)) :
      Alike same (.statements (statement :: list)) (.statements (other :: others))

/-- Numbers are not compared. -/
def AnyNumbers (_ _ : Nat) : Prop :=
  True

structure Definition.Alike (same : Nat → Nat → Prop) (definition other : Definition) : Prop where
  keyword : definition.keyword.Alike other.keyword
  name : definition.name.Alike other.name
  parameters : List.Forall₂ Parameter.Alike definition.parameters other.parameters
  returns : Option.Rel Token.Alike definition.returns other.returns
  body : Phrase.Alike same (.block definition.body) (.block other.body)

/-- The programs have the same tree up to line numbers, the import clause, and tokens with
    one text in Go. -/
structure Program.Alike (same : Nat → Nat → Prop) (program other : Program) : Prop where
  body : Phrase.Alike same (.statements program.body) (.statements other.body)
  functions : List.Forall₂ (Definition.Alike same) program.functions other.functions

/-! ## Rows -/

/-- Tokens that are alike are spelled alike, for both are written, and as one text. -/
theorem Token.Alike.spelling_eq {token other : Token} (alike : token.Alike other) :
    spelling token = spelling other := by
  obtain ⟨text, written, otherWritten⟩ := alike
  rw [spelling, spelling, written, otherWritten]

mutual

/-- Values that are alike are related leaf by leaf. The recursion is on the way in which they are
    alike. -/
theorem Value.Alike.related {value other : Value} :
    value.Alike other → value.Related Token.Alike other
  | .terminal leaf => .terminal leaf
  | .call name inside => .call name (values_related inside)

/-- Lists of values that are alike are related one by one, which the recursion through calls needs
    with the values themselves. -/
theorem values_related {values others : List Value} :
    List.Forall₂ Value.Alike values others →
      List.Forall₂ (Value.Related Token.Alike) values others
  | .nil => .nil
  | .cons first later => .cons first.related (values_related later)

end

/-- Expressions that are alike are related by their operands and operators being alike. -/
theorem Expression.Alike.related {expression other : Expression}
    (alike : expression.Alike other) : expression.Related Token.Alike other :=
  ⟨alike.left, alike.tail⟩

/-- Comparisons that are alike are related by the expressions on both sides and the comparators
    between them being alike. -/
theorem Comparison.Alike.related {condition other : Comparison}
    (alike : condition.Alike other) : condition.Related Token.Alike other := by
  obtain ⟨left, tail⟩ := condition
  obtain ⟨otherLeft, otherTail⟩ := other
  obtain ⟨lefts, tails⟩ := alike
  cases tails with
  | none => exact ⟨lefts.related, .none⟩
  | some same => exact ⟨lefts.related, .some ⟨same.1, same.2.related⟩⟩

/-- Alike phrases have one form, and neither numbers nor lines are compared in it. -/
theorem Grammar.Phrase.Alike.related {same : Nat → Nat → Prop} {phrase other : Phrase}
    (alike : phrase.Alike same other) :
    phrase.Related Token.Alike (fun _ _ _ _ => True) (fun _ _ => True) other := by
  induction alike with
  | block _ ih => exact .block trivial ih
  | chainEnd => exact .chainEnd
  | otherwise _ ih => exact .otherwise ih
  | branch word compared _ _ ih laterIh => exact .branch word compared.related ih laterIh
  | forRange word name low high _ ih => exact .forRange word name low high ih
  | whileLoop word compared _ ih => exact .whileLoop word compared.related ih
  | ifChain _ ih => exact .ifChain ih
  | declaration named typed initial => exact .declaration named typed initial.related
  | manipulation named assigned => exact .manipulation named assigned.related
  | call called => exact .call called.related
  | returnValue word returned => exact .returnValue word returned
  | hoisted _ => exact .hoisted trivial
  | nil => exact .nil
  | cons _ _ ih laterIh => exact .cons ih laterIh

/-- Definitions that are alike are related by their leaves, with no demand on their bodies or on the
    lines where they stand. -/
theorem Definition.Alike.related {same : Nat → Nat → Prop} {definition other : Definition}
    (alike : definition.Alike same other) :
    definition.Related Token.Alike (fun _ _ _ _ => True) (fun _ _ => True) other where
  keyword := alike.keyword
  name := alike.name
  parameters := alike.parameters.imp fun _ _ same => ⟨same.name, same.type⟩
  returns := alike.returns
  body := alike.body.related

/-- Programs that are alike have the same rows. Neither their import clauses nor the numbers of
    their placeholders are written. -/
theorem Program.Alike.rows_eq {same : Nat → Nat → Prop} {program other : Program}
    (alike : program.Alike same other) : program.rows = other.rows :=
  Program.Related.rows_eq Token.Alike.spelling_eq
    ⟨alike.body.related, alike.functions.imp fun _ _ same => same.related⟩

/-! ## Numbers -/

/-- The numbers count up from `first` and stop before `last`. -/
def Counts (first last : Nat) (numbers : List Nat) : Prop :=
  Consecutive first numbers ∧ first + numbers.length = last

/-- Counting up never stops before where it starts. -/
theorem Counts.le {first last : Nat} {numbers : List Nat} (counts : Counts first last numbers) :
    first ≤ last :=
  counts.2 ▸ Nat.le_add_right _ _

/-- Counting without a number is staying where one is. -/
theorem counts_nil {first last : Nat} : Counts first last [] ↔ first = last := by
  simp [Counts, Consecutive]

/-- Counting one number is starting with it and stopping right behind it. -/
theorem counts_singleton {first last number : Nat} :
    Counts first last [number] ↔ first = number ∧ last = number + 1 := by
  simp only [Counts, Consecutive, List.length_singleton, List.range'_one, List.cons.injEq, and_true]
  omega

/-- Counting in two parts is stopping somewhere in the middle and going on from there. So the middle
    can be found from either end. -/
theorem counts_append {first last : Nat} {leading following : List Nat} :
    Counts first last (leading ++ following) ↔
      ∃ middle, Counts first middle leading ∧ Counts middle last following := by
  simp only [Counts, consecutive_append, List.length_append]
  constructor
  · rintro ⟨⟨isLeading, isFollowing⟩, whole⟩
    exact ⟨_, ⟨isLeading, rfl⟩, isFollowing, by omega⟩
  · rintro ⟨middle, ⟨isLeading, rfl⟩, isFollowing, rfl⟩
    exact ⟨⟨isLeading, isFollowing⟩, by omega⟩

section Settled

variable (functions others : List Definition) (bound : Nat)

/-- If the functions that are defined in the phrases have consecutive numbers below
    `bound` and the last number is the same, the phrases have the same placeholders, and
    so have the bodies of these functions. -/
def Grammar.Phrase.Settled (phrase other : Phrase) : Prop :=
  ∀ first second last, Counts first last (phrase.ended (endingsBelow functions bound)) →
    Counts second last (other.ended (endingsBelow others bound)) → last ≤ bound →
    Phrase.Alike Eq phrase other ∧ first = second ∧
      ∀ index, first ≤ index → index < last → ∀ inside otherInside,
        Definition.Alike Eq (functions.get ⟨index, inside⟩) (others.get ⟨index, otherInside⟩)

variable {functions others bound} {phrase other following otherFollowing whole otherWhole : Phrase}

/-- Phrases in which nothing is defined are settled. They have no placeholders, so being alike with
    any numbers is being alike with the same ones. -/
theorem settled_nothing (alike : Phrase.Alike Eq phrase other)
    (nothing : ∀ earlier, phrase.ended earlier = [])
    (otherNothing : ∀ earlier, other.ended earlier = []) :
    Phrase.Settled functions others bound phrase other := by
  intro first second last counts otherCounts within
  rw [nothing, counts_nil] at counts
  rw [otherNothing, counts_nil] at otherCounts
  exact ⟨alike, counts.trans otherCounts.symm, fun index after before => by omega⟩

/-- The definitions in the phrases are those in a part of each. -/
theorem Grammar.Phrase.Settled.within
    (settled : Phrase.Settled functions others bound phrase other)
    (ended : ∀ earlier, whole.ended earlier = phrase.ended earlier)
    (otherEnded : ∀ earlier, otherWhole.ended earlier = other.ended earlier)
    (alike : Phrase.Alike Eq phrase other → Phrase.Alike Eq whole otherWhole) :
    Phrase.Settled functions others bound whole otherWhole := by
  intro first second last counts otherCounts below
  rw [ended] at counts
  rw [otherEnded] at otherCounts
  exact (settled first second last counts otherCounts below).imp_left alike

/-- Two parts that follow one another are settled from the end. The second part settles where the
    first one stops, and with this the first is settled. -/
theorem Grammar.Phrase.Settled.append
    (settled : Phrase.Settled functions others bound phrase other)
    (later : Phrase.Settled functions others bound following otherFollowing)
    (ended : ∀ earlier, whole.ended earlier = phrase.ended earlier ++ following.ended earlier)
    (otherEnded : ∀ earlier,
      otherWhole.ended earlier = other.ended earlier ++ otherFollowing.ended earlier)
    (alike : Phrase.Alike Eq phrase other → Phrase.Alike Eq following otherFollowing →
      Phrase.Alike Eq whole otherWhole) :
    Phrase.Settled functions others bound whole otherWhole := by
  intro first second last counts otherCounts below
  rw [ended, counts_append] at counts
  rw [otherEnded, counts_append] at otherCounts
  obtain ⟨middle, leadingCounts, laterCounts⟩ := counts
  obtain ⟨otherMiddle, otherLeadingCounts, otherLaterCounts⟩ := otherCounts
  obtain ⟨laterAlike, rfl, laterRelated⟩ := later _ _ _ laterCounts otherLaterCounts below
  obtain ⟨leadingAlike, rfl, related⟩ :=
    settled _ _ _ leadingCounts otherLeadingCounts (laterCounts.le.trans below)
  refine ⟨alike leadingAlike laterAlike, rfl, fun index after before => ?_⟩
  rcases Nat.lt_or_ge index middle with inside | behind
  · exact related index after inside
  · exact laterRelated index behind before

/-- What a placeholder stands for in the count are the definitions that end in its body, if its
    function is one of those below the bound. -/
theorem endingsBelow_getElem? {definition : Definition} {index : Nat} (inside : index < bound)
    (found : functions[index]? = some definition) :
    (endingsBelow functions bound)[index]?.getD [] =
      Block.ended (endingsBelow functions index) definition.body := by
  have foundBelow : (functions.take bound)[index]? = some definition := by
    rw [List.getElem?_take_of_lt inside, found]
  rw [endingsBelow, Definition.endings, accumulate_getElem?, foundBelow, List.take_take,
    Nat.min_eq_left (Nat.le_of_lt inside)]
  rfl

/-- A placeholder has the number of the last function that is defined there, and the
    functions in its body are those before. -/
theorem settled_hoisted {index line otherIndex otherLine : Nat}
    (related : List.Forall₂ (Definition.Alike AnyNumbers) functions others)
    (within : bound ≤ functions.length)
    (earlier : ∀ index < bound, ∀ inside otherInside,
      Phrase.Settled functions others index (.block (functions.get ⟨index, inside⟩).body)
        (.block (others.get ⟨index, otherInside⟩).body)) :
    Phrase.Settled functions others bound (.compound (.hoisted index line))
      (.compound (.hoisted otherIndex otherLine)) := by
  intro first second last counts otherCounts below
  simp only [Phrase.ended, Statement.ended, counts_append, counts_singleton] at counts otherCounts
  obtain ⟨own, bodyCounts, rfl, rfl⟩ := counts
  obtain ⟨_, otherBodyCounts, rfl, sameLast⟩ := otherCounts
  cases Nat.succ.inj sameLast
  have inside : own < functions.length := Nat.lt_of_lt_of_le below within
  have otherInside : own < others.length := related.length_eq ▸ inside
  rw [endingsBelow_getElem? below (List.getElem?_eq_getElem inside)] at bodyCounts
  rw [endingsBelow_getElem? below (List.getElem?_eq_getElem otherInside)] at otherBodyCounts
  obtain ⟨bodyAlike, rfl, bodyRelated⟩ :=
    earlier own below inside otherInside first second own bodyCounts otherBodyCounts le_rfl
  refine ⟨.hoisted rfl, rfl, fun number after before isInside isOtherInside => ?_⟩
  rcases Nat.lt_or_ge number own with inBody | behind
  · exact bodyRelated number after inBody isInside isOtherInside
  · obtain rfl : number = own := by omega
    obtain ⟨keyword, name, parameters, returns, -⟩ := related.get isInside isOtherInside
    exact ⟨keyword, name, parameters, returns, bodyAlike⟩

/-- The definitions that end in a chain are those that end in a continuation that has all of its
    branches. -/
theorem ended_chain (branches : List (Branch Statement)) (last : Option (Block Statement))
    (earlier : List (List Nat)) :
    (Phrase.compound (.ifChain branches last)).ended earlier =
      (Phrase.continuation branches last).ended earlier := by
  cases last <;> simp only [Phrase.ended, Statement.ended]

/-- Alike phrases are settled. The outer induction is on the number of functions that
    may be met, the inner one on the phrases. -/
theorem Grammar.Phrase.Alike.settled
    (related : List.Forall₂ (Definition.Alike AnyNumbers) functions others)
    (within : bound ≤ functions.length) (alike : Phrase.Alike AnyNumbers phrase other) :
    Phrase.Settled functions others bound phrase other := by
  induction bound using Nat.strongRecOn generalizing phrase other with
  | ind bound earlier =>
      induction alike with
      | block _ ih => exact ih.within (fun _ => rfl) (fun _ => rfl) .block
      | chainEnd => exact settled_nothing .chainEnd (fun _ => rfl) (fun _ => rfl)
      | otherwise _ ih => exact ih.within (fun _ => rfl) (fun _ => rfl) .otherwise
      | branch word compared _ _ ih laterIh =>
          refine ih.append laterIh (fun earlier => ?_) (fun earlier => ?_)
            (.branch word compared)
          · simp only [Phrase.ended, Branch.endedAll, List.append_assoc]
          · simp only [Phrase.ended, Branch.endedAll, List.append_assoc]
      | forRange word name low high _ ih =>
          exact ih.within (fun _ => rfl) (fun _ => rfl) (.forRange word name low high)
      | whileLoop word compared _ ih =>
          exact ih.within (fun _ => rfl) (fun _ => rfl) (.whileLoop word compared)
      | ifChain _ ih => exact ih.within (ended_chain _ _) (ended_chain _ _) .ifChain
      | declaration named typed initial =>
          exact settled_nothing (.declaration named typed initial) (fun _ => rfl) (fun _ => rfl)
      | manipulation named assigned =>
          exact settled_nothing (.manipulation named assigned) (fun _ => rfl) (fun _ => rfl)
      | call called => exact settled_nothing (.call called) (fun _ => rfl) (fun _ => rfl)
      | returnValue word returned =>
          exact settled_nothing (.returnValue word returned) (fun _ => rfl) (fun _ => rfl)
      | hoisted _ =>
          refine settled_hoisted related within fun index below inside otherInside => ?_
          exact earlier index below (by omega) (related.get inside otherInside).body
      | nil => exact settled_nothing .nil (fun _ => rfl) (fun _ => rfl)
      | cons _ _ ih laterIh => exact ih.append laterIh (fun _ => rfl) (fun _ => rfl) .cons

end Settled

/-- In well-formed programs that are alike, the placeholders have the same numbers. -/
theorem Program.Alike.same_numbers {program other : Program}
    (alike : program.Alike AnyNumbers other) (wellFormed : program.WellFormed)
    (otherWellFormed : other.WellFormed) : program.Alike Eq other := by
  have sameLength := alike.functions.length_eq
  have counts : Counts 0 program.functions.length
      (Statement.endedAll (Definition.endings program.functions) program.body) := by
    simp [wellFormed.numbered, Counts, Consecutive, List.range_eq_range']
  have otherCounts : Counts 0 program.functions.length
      (Statement.endedAll (Definition.endings other.functions) other.body) := by
    simp [otherWellFormed.numbered, sameLength, Counts, Consecutive, List.range_eq_range']
  have settled := alike.body.settled alike.functions le_rfl
  obtain ⟨body, -, related⟩ := settled 0 0 program.functions.length
    (by simpa [endingsBelow, Phrase.ended] using counts)
    (by simpa [endingsBelow, Phrase.ended, sameLength] using otherCounts) le_rfl
  exact ⟨body, List.forall₂_iff_get.mpr ⟨sameLength, fun index inside otherInside =>
    related index (Nat.zero_le index) inside inside otherInside⟩⟩

end Offside
