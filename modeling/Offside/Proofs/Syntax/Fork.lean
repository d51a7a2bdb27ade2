import Offside.Proofs.Layout.Heads
import Offside.Proofs.Syntax.Completeness
import Offside.Proofs.Syntax.Matching

/-!
# Token lists that part

Two sources may have their first lines in common and differ from there on. Their token
lists then begin with the same whole lines, and all that stands on a line behind these has
a greater line number.

How much of a phrase is settled by the common lines? A header stands on one line, so it is
common as soon as anything at or behind it is early. A part with blocks in it is common as
soon as anything behind the part is early: until then it may go on in one list and end in
the other.
-/

namespace Offside

open Grammar

/-- Whatever stands on a line stands behind line `last`. Block ends and line breaks have no
    say: at the end of the input they get the number of a line that was there before. -/
def Late (last : Nat) (tokens : List Token) : Prop :=
  ∀ token ∈ tokens, token.Inline → last < token.line

/-- The lists begin with the same whole lines, and the rest of either is late. -/
def Fork (last : Nat) (tokens others : List Token) : Prop :=
  ∃ common rest otherRest, tokens = common ++ rest ∧ others = common ++ otherRest ∧
    (∀ ending ∈ common.getLast?, ending.kind = .newline) ∧ Late last rest ∧ Late last otherRest

variable {last : Nat}

/-- Two stretches of tokens are late exactly when each of them is. -/
theorem late_append {first second : List Token} :
    Late last (first ++ second) ↔ Late last first ∧ Late last second :=
  List.forall_mem_append

/-- A list of tokens is late exactly when its first token is, or belongs to no line, and the others
    are. -/
theorem late_cons {token : Token} {tokens : List Token} :
    Late last (token :: tokens) ↔ (token.Inline → last < token.line) ∧ Late last tokens :=
  List.forall_mem_cons

/-- Line breaks are late wherever they stand, for they are not asked on which line they are. -/
theorem late_breaks {gap : List Token} (breaks : Breaks gap) : Late last gap :=
  fun token member isInline => absurd (breaks token member) isInline.1

namespace Fork

variable {tokens others rest : List Token}

/-- Both lists without what comes first in them part at the same place, or right at their fronts. -/
theorem tail {token other : Token} (fork : Fork last (token :: tokens) (other :: others)) :
    Fork last tokens others := by
  obtain ⟨common, rest, otherRest, same, otherSame, whole, late, otherLate⟩ := fork
  cases common with
  | nil =>
      rw [List.nil_append] at same otherSame
      subst same otherSame
      exact ⟨[], tokens, others, rfl, rfl, whole, (late_cons.mp late).2, (late_cons.mp otherLate).2⟩
  | cons first common =>
      rw [List.cons_append, List.cons.injEq] at same otherSame
      refine ⟨common, rest, otherRest, same.2, otherSame.2, ?_, late, otherLate⟩
      intro ending isLast
      cases common with
      | nil => simp at isLast
      | cons => exact whole ending (by simpa [List.getLast?_cons_cons] using isLast)

/-- Both lists behind further whole lines part behind these, at the same place as before. -/
theorem prepend {part : List Token} (fork : Fork last tokens others)
    (ends : ∀ ending ∈ part.getLast?, ending.kind = .newline) :
    Fork last (part ++ tokens) (part ++ others) := by
  obtain ⟨common, rest, otherRest, rfl, rfl, whole, late, otherLate⟩ := fork
  refine ⟨part ++ common, rest, otherRest, by simp, by simp, ?_, late, otherLate⟩
  intro ending isLast
  by_cases empty : common = []
  · subst empty
    rw [List.append_nil] at isLast
    exact ends ending isLast
  · rw [List.getLast?_append_of_ne_nil _ empty] at isLast
    exact whole ending isLast

/-- A part that is followed by anything early is common: the early token is among the common lines,
    and the part in front of it is as well. -/
theorem split {part : List Token} (fork : Fork last (part ++ rest) others)
    (early : ¬ Late last rest) :
    ∃ otherRest, others = part ++ otherRest ∧ Fork last rest otherRest := by
  obtain ⟨common, late, otherLate, same, rfl, whole, isLate, otherIsLate⟩ := fork
  rcases List.append_eq_append_iff.mp same with ⟨more, rfl, rfl⟩ | ⟨more, rfl, rfl⟩
  · refine ⟨more ++ otherLate, List.append_assoc .., more, late, otherLate, rfl, rfl, ?_, isLate,
      otherIsLate⟩
    intro ending isLast
    apply whole ending
    rwa [List.getLast?_append_of_ne_nil]
    rintro rfl
    simp at isLast
  · exact absurd (late_append.mp isLate).2 early

/-- What stands on one line is common if anything in it or behind it is early. The line goes
    on in both lists, with the same token next. -/
theorem line {header : List Token} (fork : Fork last (header ++ rest) others)
    (early : ¬ Late last (header ++ rest)) (isInline : Inline header) (nonempty : header ≠ []) :
    ∃ otherRest, others = header ++ otherRest ∧ Fork last rest otherRest ∧
      otherRest.head? = rest.head? := by
  obtain ⟨common, late, otherLate, same, rfl, whole, isLate, otherIsLate⟩ := fork
  rcases List.append_eq_append_iff.mp same with ⟨more, rfl, rfl⟩ | ⟨more, rfl, rfl⟩
  · -- The common lines end with a line break, and the header holds none.
    have goesOn : more ≠ [] := by
      rintro rfl
      rw [List.append_nil] at whole
      have ending := List.getLast?_eq_some_getLast nonempty
      exact (isInline _ (List.getLast_mem nonempty)).1 (whole _ ending)
    refine ⟨more ++ otherLate, by rw [List.append_assoc], ⟨more, late, otherLate, rfl, rfl, ?_,
      isLate, otherIsLate⟩, ?_⟩
    · rwa [List.getLast?_append_of_ne_nil _ goesOn] at whole
    · obtain ⟨next, more, rfl⟩ := List.exists_cons_of_ne_nil goesOn
      rfl
  · have empty : common = [] := by
      by_contra nonempty
      have ending := List.getLast?_eq_some_getLast nonempty
      exact (isInline _ (List.mem_append_left _ (List.getLast_mem nonempty))).1 (whole _ ending)
    subst empty
    exact absurd isLate early

/-- Line breaks apart, both lists begin with the same token if anything is early. -/
theorem front (fork : Fork last tokens others) (early : ¬ Late last tokens) :
    (skipBreaks others).head? = (skipBreaks tokens).head? := by
  obtain ⟨common, late, otherLate, rfl, rfl, whole, isLate, otherIsLate⟩ := fork
  have begins : skipBreaks common ≠ [] := by
    intro empty
    have breaks := List.dropWhile_eq_nil_iff.mp empty
    refine early (late_append.mpr ⟨late_breaks fun token member => ?_, isLate⟩)
    simpa using breaks token member
  have unchanged (rest : List Token) : (skipBreaks (common ++ rest)).head? =
      (skipBreaks common).head? := by
    obtain ⟨token, more, found⟩ := List.exists_cons_of_ne_nil begins
    have kept : skipBreaks (common ++ rest) = skipBreaks common ++ rest := by
      unfold skipBreaks at begins ⊢
      rw [List.dropWhile_append, if_neg (by simpa using begins)]
    rw [kept, found]
    rfl
  rw [unchanged, unchanged]

end Fork

/-! ## Readers that stop at one place -/

namespace Grammar

section Unique

variable {α : Type} {reader : Reader α} {tokens others rest otherRest : List Token}
  {value other : α} {first : Nat} {functions otherFunctions : List Definition}

/-- Two readings of one list by the same reader take the same tokens, since a reader is a
    function. -/
theorem takes_unique (takes : Takes reader tokens value rest)
    (otherTakes : Takes reader others other otherRest)
    (same : tokens ++ rest = others ++ otherRest) : value = other ∧ rest = otherRest := by
  have run := takes ⟨[], 0, 0⟩ [] #[]
  rw [same, otherTakes] at run
  cases run
  exact ⟨rfl, rfl⟩

/-- Two readings that define functions take the same tokens and define the same functions, if they
    start from the same list. -/
theorem yields_unique (yields : Yields reader first tokens value functions rest)
    (otherYields : Yields reader first others other otherFunctions otherRest)
    (same : tokens ++ rest = others ++ otherRest) :
    value = other ∧ functions = otherFunctions ∧ rest = otherRest := by
  obtain ⟨before, counted⟩ : ∃ before : List Definition, before.length = first :=
    ⟨List.replicate first ⟨.newline 0, .newline 0, [], none, ⟨0, []⟩⟩, List.length_replicate⟩
  obtain ⟨_, run⟩ := yields ⟨[], 0, 0⟩ before #[] counted
  obtain ⟨_, otherRun⟩ := otherYields ⟨[], 0, 0⟩ before #[] counted
  rw [same, otherRun, EStateM.Result.ok.injEq, Reader.State.mk.injEq, List.append_cancel_left_eq]
    at run
  exact ⟨run.1.symm, run.2.2.1.symm, run.2.1.symm⟩

end Unique

variable {first : Nat} {tokens others rest otherRest : List Token}
  {functions otherFunctions : List Definition}

/-- A list of tokens begins with one simple statement at most that ends its line. -/
theorem simple_unique {statement other : Statement} (derived : SimpleOf tokens statement)
    (otherDerived : SimpleOf others other) (ends : LineCanEnd rest)
    (otherEnds : LineCanEnd otherRest) (same : tokens ++ rest = others ++ otherRest) :
    statement = other ∧ rest = otherRest := by
  obtain ⟨rfl, -, rest⟩ := yields_unique
    (statement_yields_simple (Reader.blockWithin 0) derived 0 ends)
    (statement_yields_simple (Reader.blockWithin 0) otherDerived 0 otherEnds) same
  exact ⟨rfl, rest⟩

/-- A list of tokens begins with one block at most, whatever stands behind it. -/
theorem block_unique {body other : Block Statement}
    (derived : Derives first tokens (.block body) functions)
    (otherDerived : Derives first others (.block other) otherFunctions)
    (same : tokens ++ rest = others ++ otherRest) :
    body = other ∧ functions = otherFunctions ∧ rest = otherRest :=
  yields_unique
    (derives_completes derived (tokens.length + others.length) rest (Nat.le_add_right _ _))
    (derives_completes otherDerived (tokens.length + others.length) otherRest
      (Nat.le_add_left _ _)) same

/-- A list of tokens begins with one statement at most that ends with a block, provided that
    no chain goes on behind it. -/
theorem compound_unique {statement other : Statement}
    (derived : Derives first tokens (.compound statement) functions)
    (otherDerived : Derives first others (.compound other) otherFunctions)
    (ends : ChainEnds rest) (otherEnds : ChainEnds otherRest)
    (same : tokens ++ rest = others ++ otherRest) :
    statement = other ∧ functions = otherFunctions ∧ rest = otherRest :=
  yields_unique
    (derives_completes derived (tokens.length + others.length) rest (Nat.le_add_right _ _) ends)
    (derives_completes otherDerived (tokens.length + others.length) otherRest
      (Nat.le_add_left _ _) otherEnds) same

/-- What starts a statement is neither a line break nor a block end, so it stands on its line. -/
theorem starts_inline {token : Token} (starts : StartsStatement token) : token.Inline := by
  constructor
  · intro isBreak
    simp [StartsStatement, isBreak] at starts
  · intro isClose
    simp [StartsStatement, isClose] at starts

/-- A block starts with a colon, which stands on the line of its header. -/
theorem block_front {body : Block Statement}
    (derived : Derives first tokens (.block body) functions) :
    ∃ colon later, tokens = colon :: later ∧ colon.kind = .colon := by
  cases derived with
  | block _ colon newline close tokens statements _ isColon => exact ⟨colon, _, rfl, isColon⟩

/-- What stands before the block of a definition, on one line. -/
inductive SignatureOf : List Token → Definition → Prop where
  | intro (keyword name left right : Token) (inner result : List Token)
      (parameters : List Parameter) (returns : Option Token) (body : Block Statement)
      (isDef : keyword.kind = .defWord) (isName : name.kind = .identifier)
      (opens : left.kind = .leftParen) (listed : ParametersOf inner parameters)
      (closes : right.kind = .rightParen) (resulting : ResultOf result returns) :
      SignatureOf (keyword :: name :: left :: (inner ++ right :: result))
        ⟨keyword, name, parameters, returns, body⟩

/-- What stands before the block of a definition is all on one line. -/
theorem signature_inline {header : List Token} {definition : Definition}
    (spelled : SignatureOf header definition) : Inline header := by
  cases spelled with
  | intro keyword name left right inner result parameters returns body isDef isName opens listed
      closes resulting =>
      apply inline_cons (inline_of_kind isDef (by decide) (by decide))
      exact definitionHeader_inline isName opens listed closes resulting

/-- A list of tokens begins with one signature at most if no arrow follows it. -/
theorem signature_unique {header otherHeader : List Token} {definition other : Definition}
    (spelled : SignatureOf header definition) (otherSpelled : SignatureOf otherHeader other)
    (ends : ∀ token ∈ rest.head?, token.kind ≠ .arrow)
    (otherEnds : ∀ token ∈ otherRest.head?, token.kind ≠ .arrow)
    (same : header ++ rest = otherHeader ++ otherRest) :
    definition = { other with body := definition.body } ∧ rest = otherRest := by
  cases spelled with
  | intro keyword name left right inner result parameters returns body isDef isName opens listed
      closes resulting =>
      cases otherSpelled with
      | intro _ _ _ otherRight otherInner otherResult otherParameters otherReturns otherBody _ _ _
          otherListed otherCloses otherResulting =>
          simp only [List.cons_append, List.append_assoc, List.cons.injEq] at same
          obtain ⟨rfl, rfl, rfl, same⟩ := same
          have shaped : left :: (inner ++ [right]) ++ (result ++ rest) =
              left :: (otherInner ++ [otherRight]) ++ (otherResult ++ otherRest) := by
            simpa using same
          obtain ⟨rfl, behind⟩ := takes_unique
            (parameters_take opens listed closes (result ++ rest))
            (parameters_take opens otherListed otherCloses (otherResult ++ otherRest)) shaped
          obtain ⟨rfl, same⟩ := takes_unique (resultType_takes rest resulting ends)
            (resultType_takes otherRest otherResulting otherEnds) behind
          exact ⟨rfl, same⟩

end Grammar

/-! ## Phrases of two lists -/

namespace Fork

variable {first : Nat} {tokens others rest otherRest gap otherGap : List Token}
  {keyword otherKeyword : Token} {functions otherFunctions : List Definition}

/-- A chain ends exactly where the first token past all line breaks is neither `elif` nor `else`. -/
theorem chainEnds_iff {rest : List Token} : ChainEnds rest ↔
    ∀ token ∈ (skipBreaks rest).head?, token.kind ≠ .elifWord ∧ token.kind ≠ .elseWord := Iff.rfl

/-- Skipping line breaks takes away a gap and stops at the word behind it. -/
theorem skipBreaks_gap (breaks : Breaks gap) (isInline : keyword.Inline) (rest : List Token) :
    skipBreaks (gap ++ keyword :: rest) = keyword :: rest :=
  dropWhile_breaks breaks (by simpa using isInline.1)

/-- Two phrases behind line breaks begin with the same word if anything in them or behind is early.
    The line breaks in front can be taken away on both sides. -/
theorem words (fork : Fork last (gap ++ keyword :: rest) (otherGap ++ otherKeyword :: otherRest))
    (early : ¬ Late last (gap ++ keyword :: rest)) (breaks : Breaks gap)
    (otherBreaks : Breaks otherGap) (isInline : keyword.Inline)
    (otherInline : otherKeyword.Inline) :
    otherKeyword = keyword ∧ ¬ Late last (keyword :: rest) ∧
      Fork last (keyword :: rest) (keyword :: otherRest) := by
  have wordEarly : ¬ Late last ([keyword] ++ rest) := fun late =>
    early (late_append.mpr ⟨late_breaks breaks, late⟩)
  obtain ⟨middle, same, later⟩ := fork.split wordEarly
  obtain ⟨more, rfl, -⟩ := later.line wordEarly (List.forall_mem_singleton.mpr isInline)
    (List.cons_ne_nil _ _)
  have behind := congrArg skipBreaks same
  rw [List.singleton_append, skipBreaks_gap breaks isInline, skipBreaks_gap otherBreaks otherInline,
    List.cons.injEq] at behind
  obtain ⟨rfl, rfl⟩ := behind
  exact ⟨rfl, wordEarly, later⟩

/-- Where one chain goes on and anything is early, the other one does not end: it would begin with
    the same word there. -/
theorem chain_goesOn (fork : Fork last (gap ++ keyword :: rest) others)
    (early : ¬ Late last (gap ++ keyword :: rest)) (breaks : Breaks gap)
    (isInline : keyword.Inline) (ends : ChainEnds others) :
    keyword.kind ≠ .elifWord ∧ keyword.kind ≠ .elseWord := by
  apply chainEnds_iff.mp ends
  rw [fork.front early, skipBreaks_gap breaks isInline]
  exact rfl

/-- Where one list of statements goes on, the other one does not end. -/
theorem list_goesOn (fork : Fork last (gap ++ keyword :: rest) (otherGap ++ otherRest))
    (early : ¬ Late last (gap ++ keyword :: rest)) (breaks : Breaks gap)
    (otherBreaks : Breaks otherGap) (isInline : keyword.Inline) : ¬ ListEnds otherRest := by
  intro ends
  have fronts := fork.front early
  have atEnd : skipBreaks (otherGap ++ otherRest) = otherRest :=
    dropWhile_breaks otherBreaks fun token member => by simp [ends token member]
  rw [skipBreaks_gap breaks isInline, atEnd] at fronts
  exact isInline.2 (ends keyword fronts)

/-- Where one statement begins with a word, so does the other one. -/
theorem starts {statement : Statement} (fork : Fork last (keyword :: rest) (others ++ otherRest))
    (early : ¬ Late last (keyword :: rest)) (isInline : keyword.Inline)
    (derived : Derives first others (.compound statement) functions) :
    others.head? = some keyword := by
  rw [← List.singleton_append] at fork early
  obtain ⟨middle, same, -⟩ := fork.line early (List.forall_mem_singleton.mpr isInline)
    (List.cons_ne_nil _ _)
  obtain ⟨otherWord, more, rfl, -⟩ := compound_front derived
  rw [List.cons_append, List.singleton_append, List.cons.injEq] at same
  exact congrArg some same.1

/-- Statements behind line breaks begin with the same word if anything in them or behind is early,
    and the lists still part behind it. -/
theorem fronts (fork : Fork last (gap ++ (tokens ++ rest)) (otherGap ++ (others ++ otherRest)))
    (early : ¬ Late last (gap ++ (tokens ++ rest))) (breaks : Breaks gap)
    (otherBreaks : Breaks otherGap)
    (front : ∃ word more, tokens = word :: more ∧ StartsStatement word)
    (otherFront : ∃ word more, others = word :: more ∧ StartsStatement word) :
    others.head? = tokens.head? ∧ ¬ Late last (tokens ++ rest) ∧
      Fork last (tokens ++ rest) (others ++ otherRest) := by
  obtain ⟨word, more, rfl, starts⟩ := front
  obtain ⟨otherWord, otherMore, rfl, otherStarts⟩ := otherFront
  obtain ⟨rfl, wordEarly, later⟩ := fork.words early breaks otherBreaks (starts_inline starts)
    (starts_inline otherStarts)
  exact ⟨rfl, wordEarly, later⟩

/-- A block that is followed by anything early is the same in both lists. -/
theorem block {body other : Block Statement}
    (fork : Fork last (tokens ++ rest) (others ++ otherRest)) (early : ¬ Late last rest)
    (derived : Derives first tokens (.block body) functions)
    (otherDerived : Derives first others (.block other) otherFunctions) :
    other = body ∧ otherFunctions = functions ∧ Fork last rest otherRest := by
  obtain ⟨middle, same, later⟩ := fork.split early
  obtain ⟨rfl, rfl, rfl⟩ := block_unique otherDerived derived same
  exact ⟨rfl, rfl, later⟩

/-- A statement that ends with a block is common, with its functions, if anything behind it is
    early. In both lists its chain of branches has ended there. -/
theorem compound {statement other : Statement}
    (fork : Fork last (tokens ++ rest) (others ++ otherRest)) (early : ¬ Late last rest)
    (derived : Derives first tokens (.compound statement) functions)
    (otherDerived : Derives first others (.compound other) otherFunctions)
    (ends : ChainEnds rest) (otherEnds : ChainEnds otherRest) :
    other = statement ∧ otherFunctions = functions ∧ Fork last rest otherRest := by
  obtain ⟨middle, same, later⟩ := fork.split early
  have middleEnds : ChainEnds middle := by
    rw [chainEnds_iff] at ends ⊢
    rwa [later.front early]
  obtain ⟨rfl, rfl, rfl⟩ := compound_unique otherDerived derived otherEnds middleEnds same
  exact ⟨rfl, rfl, later⟩

/-- A statement on one line is common if anything in it or behind it is early. It stands on a line
    of its own, which is common as a whole. -/
theorem simple {statement other : Statement}
    (fork : Fork last (tokens ++ rest) (others ++ otherRest)) (early : ¬ Late last (tokens ++ rest))
    (derived : SimpleOf tokens statement) (otherDerived : SimpleOf others other)
    (ends : LineCanEnd rest) (otherEnds : LineCanEnd otherRest) :
    other = statement ∧ Fork last rest otherRest := by
  have nonempty : tokens ≠ [] := by
    obtain ⟨word, more, rfl, _⟩ := simple_front derived
    exact List.cons_ne_nil _ _
  obtain ⟨middle, same, later, next⟩ := fork.line early (simple_plain derived).1 nonempty
  have stops : LineCanEnd middle := by
    unfold LineCanEnd
    rwa [next]
  obtain ⟨rfl, rfl⟩ := simple_unique otherDerived derived otherEnds stops same
  exact ⟨rfl, later⟩

/-- A condition stands on a line with its word, up to the colon of its block. -/
theorem condition {condition otherCondition : List Token} {comparison otherComparison : Comparison}
    {body other : Block Statement}
    (fork : Fork last (keyword :: (condition ++ (tokens ++ rest)))
      (otherKeyword :: (otherCondition ++ (others ++ otherRest))))
    (early : ¬ Late last (keyword :: (condition ++ (tokens ++ rest)))) (isInline : keyword.Inline)
    (compared : ComparisonOf condition comparison)
    (otherCompared : ComparisonOf otherCondition otherComparison)
    (derived : Derives first tokens (.block body) functions)
    (otherDerived : Derives first others (.block other) otherFunctions) :
    otherComparison = comparison ∧ Fork last (tokens ++ rest) (others ++ otherRest) := by
  rw [← List.cons_append] at fork early
  obtain ⟨middle, same, later, next⟩ := fork.line early
    (inline_cons isInline (comparison_inline compared)) (List.cons_ne_nil _ _)
  obtain ⟨colon, body, rfl, isColon⟩ := block_front derived
  have stops : Takes Reader.comparison condition comparison middle := by
    apply comparison_takes compared
    intro token member
    obtain rfl : colon = token := by simpa [next] using member
    exact ⟨by simp [Operator, isColon], by simp [Comparator, isColon]⟩
  rw [List.cons_append, List.cons.injEq] at same
  obtain ⟨rfl, rfl⟩ := takes_unique (comparison_takes_block otherCompared otherDerived otherRest)
    stops same.2
  exact ⟨rfl, later⟩

/-- The signature of a definition stands on a line, up to the colon of the body. -/
theorem signature {header otherHeader : List Token} {definition otherDefinition : Definition}
    {body other : Block Statement}
    (fork : Fork last (header ++ (tokens ++ rest)) (otherHeader ++ (others ++ otherRest)))
    (early : ¬ Late last (header ++ (tokens ++ rest))) (spelled : SignatureOf header definition)
    (otherSpelled : SignatureOf otherHeader otherDefinition)
    (derived : Derives first tokens (.block body) functions)
    (otherDerived : Derives first others (.block other) otherFunctions) :
    otherDefinition = { definition with body := otherDefinition.body } ∧
      Fork last (tokens ++ rest) (others ++ otherRest) := by
  have nonempty : header ≠ [] := by
    cases spelled
    exact List.cons_ne_nil _ _
  obtain ⟨middle, same, later, next⟩ := fork.line early (signature_inline spelled) nonempty
  obtain ⟨colon, more, rfl, isColon⟩ := block_front derived
  obtain ⟨otherColon, otherMore, rfl, otherIsColon⟩ := block_front otherDerived
  obtain ⟨rebuilt, rfl⟩ := signature_unique otherSpelled spelled (by simp [otherIsColon])
    (by simp [next, isColon]) same
  exact ⟨rebuilt, later⟩

/-- The import clause is taken away from both lists if anything in or behind it is early, for it
    stands on a line of its own. -/
theorem clause {clause otherClause : ImportClause}
    (fork : Fork last (gap ++ (tokens ++ rest)) (otherGap ++ (others ++ otherRest)))
    (early : ¬ Late last (gap ++ (tokens ++ rest))) (breaks : Breaks gap)
    (otherBreaks : Breaks otherGap) (imported : ImportOf tokens clause)
    (otherImported : ImportOf others otherClause) : Fork last rest otherRest := by
  have isInline := (import_plain imported).1
  have otherInline := (import_plain otherImported).1
  obtain ⟨word, more, rfl, -⟩ := import_front imported
  obtain ⟨otherWord, otherMore, rfl, -⟩ := import_front otherImported
  obtain ⟨rfl, lineEarly, line⟩ := fork.words early breaks otherBreaks
    (isInline word List.mem_cons_self) (otherInline otherWord List.mem_cons_self)
  obtain ⟨middle, same, later, -⟩ := line.line lineEarly isInline (List.cons_ne_nil _ _)
  obtain ⟨-, rfl⟩ := takes_unique (importClause_takes otherImported otherRest)
    (importClause_takes imported middle) same
  exact later

end Fork

end Offside
