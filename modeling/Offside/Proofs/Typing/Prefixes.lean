import Offside.Proofs.Typing.Precedence

/-!
# Static analysis does not look ahead

Two token lists with the same first lines stand for programs that differ: blocks go on or
end, chains get further branches, and more functions are hoisted, so that placeholders have
other numbers. Nothing of this can be noticed before a late line is reached. The check of
the first program fails on an early line only where the check of the second one fails too,
with the same fault.

The proof follows the derivation of the first program. What is early in a phrase is common
to both lists, so the second derivation is made in the same way up to there. Of two parts
one after the other either the second has nothing early in it, and then only the first one
matters, or the first part is the same on both sides.
-/

namespace Offside

open Grammar

/-- What may stand behind a phrase for the phrase to end there. -/
def Follows (rest : List Token) : Phrase → Prop
  | .block _ => True
  | .continuation _ _ | .compound _ => ChainEnds rest
  | .statements _ => ListEnds rest

/-- The other phrase is of the sort of this one. -/
def SameSort (other : Phrase) : Phrase → Prop
  | .block _ => ∃ body, other = .block body
  | .continuation _ _ => ∃ branches otherwise, other = .continuation branches otherwise
  | .compound _ => ∃ statement, other = .compound statement
  | .statements _ => ∃ list, other = .statements list

/-- A derived phrase in its program, whose functions are listed, with `rest` behind it. The
    bound is enough for the definitions in it. -/
structure Embedded (functions : List Definition) (bound first : Nat) (tokens rest : List Token)
    (phrase : Phrase) (defined : List Definition) : Prop where
  derived : Derives first tokens phrase defined
  located : Located functions first defined
  enough : first + defined.length ≤ bound
  follows : Follows rest phrase

namespace Embedded

variable {functions : List Definition} {first bound : Nat} {tokens later rest : List Token}
  {phrase next : Phrase} {defined laterDefined : List Definition}

/-- The first of two parts is embedded with the second one behind it, and its functions are the
    first ones that both define. -/
theorem leading (derived : Derives first tokens phrase defined)
    (located : Located functions first (defined ++ laterDefined))
    (enough : first + (defined ++ laterDefined).length ≤ bound) (follows : Follows rest phrase) :
    Embedded functions bound first tokens rest phrase defined where
  derived := derived
  located := (located_append located).1
  enough := by
    rw [List.length_append] at enough
    omega
  follows := follows

/-- The second of two parts is embedded with what stands behind both, and its functions are numbered
    on from those of the first. -/
theorem following (derived : Derives (first + defined.length) later next laterDefined)
    (located : Located functions first (defined ++ laterDefined))
    (enough : first + (defined ++ laterDefined).length ≤ bound) (follows : Follows rest next) :
    Embedded functions bound (first + defined.length) later rest next laterDefined where
  derived := derived
  located := (located_append located).2
  enough := by rwa [Nat.add_assoc, ← List.length_append]
  follows := follows

end Embedded

namespace Check

variable {last : Nat} {functions others : List Definition}

/-- If anything in the phrase or behind it is early, a failure on an early line is the same
    wherever a phrase of its sort begins with the same lines. -/
def Determined (last : Nat) (functions others : List Definition) (first : Nat)
    (tokens : List Token) (phrase : Phrase) (defined : List Definition) : Prop :=
  ∀ {bound otherBound : Nat} {rest otherTokens otherRest : List Token} {other : Phrase}
    {otherDefined : List Definition},
    Embedded functions bound first tokens rest phrase defined →
    Embedded others otherBound first otherTokens otherRest other otherDefined →
    SameSort other phrase → Fork last (tokens ++ rest) (otherTokens ++ otherRest) →
    ¬ Late last (tokens ++ rest) →
    PhraseLinked (Foreruns last) (Check.definition functions bound)
      (Check.definition others otherBound) phrase other

section Parts

variable {first bound otherBound : Nat}
  {tokens later rest otherTokens otherLater otherRest : List Token}
  {phrase next other otherNext : Phrase}
  {defined laterDefined otherDefined otherLaterDefined : List Definition}

/-- If nothing is early, there are no failures on early lines, and otherwise they are determined.
    Either way one check foreruns the other. -/
theorem Determined.foreruns
    (determined : Determined last functions others first tokens phrase defined)
    (embedded : Embedded functions bound first tokens rest phrase defined)
    (otherEmbedded : Embedded others otherBound first otherTokens otherRest other otherDefined)
    (sort : SameSort other phrase) (fork : Fork last (tokens ++ rest) (otherTokens ++ otherRest)) :
    PhraseLinked (Foreruns last) (Check.definition functions bound)
      (Check.definition others otherBound) phrase other := by
  by_cases late : Late last (tokens ++ rest)
  · exact (derives_beyond embedded.derived embedded.located embedded.enough
      (late_append.mp late).1).foreruns _ _
  · exact determined embedded otherEmbedded sort fork late

/-- Two parts one after the other: only the first one has early failures, or it is the same
    on both sides. -/
theorem parts_determined
    (leading : Embedded functions bound first tokens (later ++ rest) phrase defined)
    (following : Embedded functions bound (first + defined.length) later rest next laterDefined)
    (otherLeading : Embedded others otherBound first otherTokens (otherLater ++ otherRest) other
      otherDefined)
    (otherFollowing : Embedded others otherBound (first + otherDefined.length) otherLater otherRest
      otherNext otherLaterDefined)
    (sort : SameSort other phrase) (nextSort : SameSort otherNext next)
    (fork : Fork last (tokens ++ (later ++ rest)) (otherTokens ++ (otherLater ++ otherRest)))
    (settled : ¬ Late last (later ++ rest) → other = phrase ∧ otherDefined = defined ∧
      Fork last (later ++ rest) (otherLater ++ otherRest))
    (ih : Determined last functions others first tokens phrase defined)
    (laterIh : Determined last functions others (first + defined.length) later next laterDefined) :
    PhraseBeyond last (Check.definition functions bound) next ∧
        PhraseLinked (Foreruns last) (Check.definition functions bound)
          (Check.definition others otherBound) phrase other ∨
      other = phrase ∧
        PhraseLinked Eq (Check.definition functions bound) (Check.definition others otherBound)
          phrase phrase ∧
        PhraseLinked (Foreruns last) (Check.definition functions bound)
          (Check.definition others otherBound) next otherNext := by
  by_cases late : Late last (later ++ rest)
  · exact .inl ⟨derives_beyond following.derived following.located following.enough
      (late_append.mp late).1, ih.foreruns leading otherLeading sort fork⟩
  · obtain ⟨rfl, rfl, laterFork⟩ := settled late
    exact .inr ⟨rfl, derives_settled leading.derived leading.located otherLeading.located
      leading.enough otherLeading.enough, laterIh following otherFollowing nextSort laterFork late⟩

end Parts

section Chains

variable {first bound otherBound : Nat} {keyword otherKeyword : Token}
  {condition tokens later rest otherCondition otherTokens otherLater otherRest : List Token}
  {comparison otherComparison : Comparison} {body otherBody : Block Statement}
  {list otherList : List (Branch Statement)} {final otherFinal : Option (Block Statement)}
  {defined laterDefined otherDefined otherLaterDefined : List Definition}

/-- A branch of a chain and what follows it: whether its block or what continues it holds the early
    failure, both programs have it. -/
theorem branch_determined
    (leading : Embedded functions bound first tokens (later ++ rest) (.block body) defined)
    (following : Embedded functions bound (first + defined.length) later rest
      (.continuation list final) laterDefined)
    (otherLeading : Embedded others otherBound first otherTokens (otherLater ++ otherRest)
      (.block otherBody) otherDefined)
    (otherFollowing : Embedded others otherBound (first + otherDefined.length) otherLater otherRest
      (.continuation otherList otherFinal) otherLaterDefined)
    (compared : ComparisonOf condition comparison)
    (otherCompared : ComparisonOf otherCondition otherComparison)
    (isInline : keyword.Inline)
    (fork : Fork last (keyword :: (condition ++ (tokens ++ (later ++ rest))))
      (otherKeyword :: (otherCondition ++ (otherTokens ++ (otherLater ++ otherRest)))))
    (early : ¬ Late last (keyword :: (condition ++ (tokens ++ (later ++ rest)))))
    (ih : Determined last functions others first tokens (.block body) defined)
    (laterIh : Determined last functions others (first + defined.length) later
      (.continuation list final) laterDefined) :
    PhraseLinked (Foreruns last) (Check.definition functions bound)
      (Check.definition others otherBound)
      (.continuation (⟨keyword, comparison, body⟩ :: list) final)
      (.continuation (⟨otherKeyword, otherComparison, otherBody⟩ :: otherList) otherFinal) := by
  obtain ⟨rfl, parts⟩ := fork.condition early isInline compared otherCompared leading.derived
    otherLeading.derived
  intro environment
  simp only [chain, branches, bind_assoc]
  apply foreruns_after
  intro _
  have settled (behind : ¬ Late last (later ++ rest)) :
      (Phrase.block otherBody) = .block body ∧ otherDefined = defined ∧
        Fork last (later ++ rest) (otherLater ++ otherRest) := by
    obtain ⟨rfl, same⟩ := parts.block behind leading.derived otherLeading.derived
    exact ⟨rfl, same⟩
  rcases parts_determined leading following otherLeading otherFollowing ⟨otherBody, rfl⟩
    ⟨otherList, otherFinal, rfl⟩ parts settled ih laterIh with
    ⟨beyond, inside⟩ | ⟨same, inside, after⟩
  · exact foreruns_bind (foreruns_inBlock (inside _)) fun _ => beyond environment
  · cases same
    simp only [inside _]
    exact foreruns_after fun _ => after environment

end Chains

section Cases

variable {first : Nat} {gap condition tokens later : List Token} {keyword : Token}
  {comparison : Comparison} {body : Block Statement} {defined laterDefined : List Definition}

/-- A block is determined if the statements in it are. The tokens around these are checked for
    nothing, and what stands behind the end stands behind the statements. -/
theorem block_determined {colon newline close : Token} {list : List Statement}
    (isClose : close.kind = .closeBlock)
    (derived : Derives first tokens (.statements list) defined)
    (ih : Determined last functions others first tokens (.statements list) defined) :
    Determined last functions others first (colon :: newline :: (tokens ++ [close]))
      (.block ⟨colon.line, list⟩) defined := by
  rintro bound otherBound rest otherTokens otherRest _ otherDefined embedded otherEmbedded
    ⟨otherBody, rfl⟩ fork -
  obtain ⟨otherDerived, otherLocated, otherEnough, -⟩ := otherEmbedded
  cases otherDerived with
  | block _ otherColon otherNewline otherClose otherTokens otherList _ _ _ otherIsClose _
      otherDerived =>
      simp only [List.cons_append, List.append_assoc, List.nil_append] at fork
      have ends {close : Token} (isClose : close.kind = .closeBlock) (rest : List Token) :
          ListEnds (close :: rest) := by simpa [ListEnds] using isClose
      have inside := ih.foreruns ⟨derived, embedded.located, embedded.enough, ends isClose rest⟩
        ⟨otherDerived, otherLocated, otherEnough, ends otherIsClose otherRest⟩ ⟨otherList, rfl⟩
        fork.tail.tail
      intro environment
      simp only [block]
      exact inside environment

/-- The `else` of a chain is determined if its block is. The other chain goes on with the same word
    if anything is early. -/
theorem otherwise_determined (breaks : Breaks gap) (isElse : keyword.kind = .elseWord)
    (derived : Derives first tokens (.block body) defined)
    (ih : Determined last functions others first tokens (.block body) defined) :
    Determined last functions others first (gap ++ keyword :: tokens)
      (.continuation [] (some body)) defined := by
  rintro bound otherBound rest otherTokens otherRest _ otherDefined embedded otherEmbedded
    ⟨otherBranches, otherFinal, rfl⟩ fork early
  obtain ⟨otherDerived, otherLocated, otherEnough, otherFollows⟩ := otherEmbedded
  have isInline : keyword.Inline := inline_of_kind isElse (by decide) (by decide)
  simp only [List.append_assoc, List.cons_append] at fork early
  cases otherDerived with
  | chainEnd => exact absurd isElse (fork.chain_goesOn early breaks isInline otherFollows).2
  | otherwise _ otherGap otherKeyword otherTokens otherBody _ otherBreaks otherIsElse
      otherDerived =>
      have otherInline : otherKeyword.Inline := inline_of_kind otherIsElse (by decide) (by decide)
      simp only [List.append_assoc, List.cons_append] at fork
      have inside := ih.foreruns ⟨derived, embedded.located, embedded.enough, trivial⟩
        ⟨otherDerived, otherLocated, otherEnough, trivial⟩ ⟨otherBody, rfl⟩
        (fork.words early breaks otherBreaks isInline otherInline).2.2.tail
      intro environment
      simp only [chain, branches, pure_bind]
      exact foreruns_inBlock (inside _)
  | branch _ otherGap otherKeyword _ _ _ _ _ _ _ _ _ otherBreaks otherIsElif =>
      have otherInline : otherKeyword.Inline := inline_of_kind otherIsElif (by decide) (by decide)
      simp only [List.append_assoc, List.cons_append] at fork
      obtain ⟨rfl, -⟩ := fork.words early breaks otherBreaks isInline otherInline
      simp [isElse] at otherIsElif

/-- A further branch of a chain is determined if its block is and what continues the chain behind
    it. -/
theorem continued_determined {list : List (Branch Statement)} {final : Option (Block Statement)}
    (breaks : Breaks gap) (isElif : keyword.kind = .elifWord)
    (compared : ComparisonOf condition comparison)
    (derived : Derives first tokens (.block body) defined)
    (continued : Derives (first + defined.length) later (.continuation list final) laterDefined)
    (ih : Determined last functions others first tokens (.block body) defined)
    (laterIh : Determined last functions others (first + defined.length) later
      (.continuation list final) laterDefined) :
    Determined last functions others first (gap ++ keyword :: (condition ++ (tokens ++ later)))
      (.continuation (⟨keyword, comparison, body⟩ :: list) final) (defined ++ laterDefined) := by
  rintro bound otherBound rest otherTokens otherRest _ otherDefined embedded otherEmbedded
    ⟨otherBranches, otherFinal, rfl⟩ fork early
  obtain ⟨-, located, enough, follows⟩ := embedded
  obtain ⟨otherDerived, otherLocated, otherEnough, otherFollows⟩ := otherEmbedded
  have isInline : keyword.Inline := inline_of_kind isElif (by decide) (by decide)
  simp only [List.append_assoc, List.cons_append] at fork early
  cases otherDerived with
  | chainEnd => exact absurd isElif (fork.chain_goesOn early breaks isInline otherFollows).1
  | otherwise _ otherGap otherKeyword _ _ _ otherBreaks otherIsElse =>
      have otherInline : otherKeyword.Inline := inline_of_kind otherIsElse (by decide) (by decide)
      simp only [List.append_assoc, List.cons_append] at fork
      obtain ⟨rfl, -⟩ := fork.words early breaks otherBreaks isInline otherInline
      simp [isElif] at otherIsElse
  | branch _ otherGap otherKeyword otherCondition otherTokens otherLater otherComparison otherBody
      otherList otherFinal _ _ otherBreaks otherIsElif otherCompared otherDerived otherContinued =>
      have otherInline : otherKeyword.Inline := inline_of_kind otherIsElif (by decide) (by decide)
      simp only [List.append_assoc, List.cons_append] at fork
      obtain ⟨rfl, wordEarly, line⟩ := fork.words early breaks otherBreaks isInline otherInline
      exact branch_determined (.leading derived located enough trivial)
        (.following continued located enough follows)
        (.leading otherDerived otherLocated otherEnough trivial)
        (.following otherContinued otherLocated otherEnough otherFollows) compared otherCompared
        isInline line wordEarly ih laterIh

/-- A chain is determined if its first block is and what continues it. -/
theorem ifChain_determined {list : List (Branch Statement)} {final : Option (Block Statement)}
    (isIf : keyword.kind = .ifWord) (compared : ComparisonOf condition comparison)
    (derived : Derives first tokens (.block body) defined)
    (continued : Derives (first + defined.length) later (.continuation list final) laterDefined)
    (ih : Determined last functions others first tokens (.block body) defined)
    (laterIh : Determined last functions others (first + defined.length) later
      (.continuation list final) laterDefined) :
    Determined last functions others first (keyword :: (condition ++ (tokens ++ later)))
      (.compound (.ifChain (⟨keyword, comparison, body⟩ :: list) final))
      (defined ++ laterDefined) := by
  rintro bound otherBound rest otherTokens otherRest _ otherDefined embedded otherEmbedded
    ⟨otherStatement, rfl⟩ fork early
  obtain ⟨-, located, enough, follows⟩ := embedded
  obtain ⟨otherDerived, otherLocated, otherEnough, otherFollows⟩ := otherEmbedded
  have isInline : keyword.Inline := inline_of_kind isIf (by decide) (by decide)
  have begins := fork.starts early isInline otherDerived
  simp only [List.append_assoc, List.cons_append] at fork early
  cases otherDerived with
  | ifChain _ otherKeyword otherCondition otherTokens otherLater otherComparison otherBody
      otherList otherFinal _ _ _ otherCompared otherDerived otherContinued =>
      simp only [List.append_assoc, List.cons_append] at fork
      have inside := branch_determined (.leading derived located enough trivial)
        (.following continued located enough follows)
        (.leading otherDerived otherLocated otherEnough trivial)
        (.following otherContinued otherLocated otherEnough otherFollows) compared otherCompared
        isInline fork early ih laterIh
      intro environment
      rw [statement_ifChain, statement_ifChain]
      exact foreruns_unchanged "if" environment (inside environment)
  | forRange => simp_all
  | whileLoop => simp_all
  | definition => simp_all

/-- A loop with a condition is determined if its block is, since its header stands on one line. -/
theorem whileLoop_determined (isWhile : keyword.kind = .whileWord)
    (compared : ComparisonOf condition comparison)
    (derived : Derives first tokens (.block body) defined)
    (ih : Determined last functions others first tokens (.block body) defined) :
    Determined last functions others first (keyword :: (condition ++ tokens))
      (.compound (.whileLoop keyword comparison body)) defined := by
  rintro bound otherBound rest otherTokens otherRest _ otherDefined embedded otherEmbedded
    ⟨otherStatement, rfl⟩ fork early
  obtain ⟨otherDerived, otherLocated, otherEnough, -⟩ := otherEmbedded
  have isInline : keyword.Inline := inline_of_kind isWhile (by decide) (by decide)
  have begins := fork.starts early isInline otherDerived
  simp only [List.append_assoc, List.cons_append] at fork early
  cases otherDerived with
  | whileLoop _ otherKeyword otherCondition otherTokens otherComparison otherBody _ _ otherCompared
      otherDerived =>
      simp only [List.append_assoc, List.cons_append] at fork
      obtain ⟨rfl, bodies⟩ := fork.condition early isInline compared otherCompared derived
        otherDerived
      have inside := ih.foreruns ⟨derived, embedded.located, embedded.enough, trivial⟩
        ⟨otherDerived, otherLocated, otherEnough, trivial⟩ ⟨otherBody, rfl⟩ bodies
      intro environment
      simp only [statement]
      apply foreruns_unchanged
      exact foreruns_after fun _ => foreruns_inBlock (inside _)
  | forRange => simp_all
  | ifChain => simp_all
  | definition => simp_all

/-- A bounded loop begins with one line up to the colon of its block. -/
theorem forRange_determined {counter inside range left start comma stop right : Token}
    (isFor : keyword.kind = .forWord) (isCounter : counter.kind = .identifier)
    (isIn : inside.kind = .inWord) (isRange : range.kind = .range)
    (opens : left.kind = .leftParen) (startBound : Bound start) (isComma : comma.kind = .comma)
    (stopBound : Bound stop) (closes : right.kind = .rightParen)
    (derived : Derives first tokens (.block body) defined)
    (ih : Determined last functions others first tokens (.block body) defined) :
    Determined last functions others first
      (keyword :: counter :: inside :: range :: left :: start :: comma :: stop :: right :: tokens)
      (.compound (.forRange keyword counter start stop body)) defined := by
  rintro bound otherBound rest otherTokens otherRest _ otherDefined embedded otherEmbedded
    ⟨otherStatement, rfl⟩ fork early
  obtain ⟨otherDerived, otherLocated, otherEnough, -⟩ := otherEmbedded
  have isInline : Inline [keyword, counter, inside, range, left, start, comma, stop, right] := by
    simp [Inline, Token.Inline, isFor, isCounter, isIn, isRange, opens, startBound.inline.1,
      startBound.inline.2, isComma, stopBound.inline.1, stopBound.inline.2, closes]
  have begins := fork.starts early (isInline keyword List.mem_cons_self) otherDerived
  cases otherDerived with
  | forRange _ otherKeyword otherCounter _ _ _ otherStart _ otherStop _ otherTokens otherBody _
      _ _ _ _ _ _ _ _ _ otherDerived =>
      have line : Fork last ([keyword, counter, inside, range, left, start, comma, stop, right] ++
          (tokens ++ rest)) _ := fork
      obtain ⟨middle, same, bodies, -⟩ := line.line early isInline (List.cons_ne_nil _ _)
      obtain ⟨rfl, rfl, rfl, rfl, rfl, rfl, rfl, rfl, rfl, rfl⟩ := same
      have inner := ih.foreruns ⟨derived, embedded.located, embedded.enough, trivial⟩
        ⟨otherDerived, otherLocated, otherEnough, trivial⟩ ⟨otherBody, rfl⟩ bodies
      intro environment
      simp only [statement]
      apply foreruns_unchanged
      exact foreruns_after fun _ => foreruns_after fun _ => foreruns_inBlock (inner _)
  | whileLoop => simp_all
  | ifChain => simp_all
  | definition => simp_all

/-- The placeholders of a definition can have different numbers, but they lead to functions
    with one signature. -/
theorem definition_determined {name left right : Token} {inner result : List Token}
    {parameters : List Parameter} {returns : Option Token} (isDef : keyword.kind = .defWord)
    (isName : name.kind = .identifier) (opens : left.kind = .leftParen)
    (listed : ParametersOf inner parameters) (closes : right.kind = .rightParen)
    (resulting : ResultOf result returns)
    (derived : Derives first tokens (.block body) defined)
    (ih : Determined last functions others first tokens (.block body) defined) :
    Determined last functions others first
      (keyword :: name :: left :: (inner ++ right :: (result ++ tokens)))
      (.compound (.hoisted (first + defined.length) keyword.line))
      (defined ++ [⟨keyword, name, parameters, returns, body⟩]) := by
  rintro bound otherBound rest otherTokens otherRest _ otherDefined embedded otherEmbedded
    ⟨otherStatement, rfl⟩ fork early
  obtain ⟨-, located, enough, -⟩ := embedded
  obtain ⟨otherDerived, otherLocated, otherEnough, -⟩ := otherEmbedded
  have isInline : keyword.Inline := inline_of_kind isDef (by decide) (by decide)
  have begins := fork.starts early isInline otherDerived
  cases otherDerived with
  | definition _ otherKeyword otherName otherLeft otherRight otherInner otherResult otherTokens
      otherParameters otherReturns otherBody otherDefined otherIsDef otherIsName otherOpens
      otherListed otherCloses otherResulting otherDerived =>
      have spelled := SignatureOf.intro keyword name left right inner result parameters returns body
        isDef isName opens listed closes resulting
      have otherSpelled := SignatureOf.intro otherKeyword otherName otherLeft otherRight otherInner
        otherResult otherParameters otherReturns otherBody otherIsDef otherIsName otherOpens
        otherListed otherCloses otherResulting
      simp only [List.append_assoc, List.cons_append] at fork early
      obtain ⟨same, bodies⟩ := Fork.signature (by simpa using fork) (by simpa using early) spelled
        otherSpelled derived otherDerived
      cases same
      obtain ⟨here, found⟩ := located_last located
      obtain ⟨otherHere, otherFound⟩ := located_last otherLocated
      rw [List.length_append, List.length_singleton] at enough otherEnough
      obtain ⟨bound, rfl⟩ : ∃ smaller, bound = smaller + 1 := ⟨bound - 1, by omega⟩
      obtain ⟨otherBound, rfl⟩ : ∃ smaller, otherBound = smaller + 1 := ⟨otherBound - 1, by omega⟩
      have inside := ih.foreruns ⟨derived, here, Nat.le_of_succ_le_succ enough, trivial⟩
        ⟨otherDerived, otherHere, Nat.le_of_succ_le_succ otherEnough, trivial⟩ ⟨otherBody, rfl⟩
        bodies
      intro environment
      simp only [statement, definition_found found, definition_found otherFound]
      apply foreruns_step
      apply foreruns_bind (foreruns_inFunction ?_) fun _ => beyond_pure _
      exact foreruns_inBlock (inside _)
  | forRange => simp_all
  | whileLoop => simp_all
  | ifChain => simp_all

/-- No word starts both a simple statement and one with a block at its end. -/
theorem words_apart {others : List Token} {single other : Statement}
    (derived : SimpleOf tokens single)
    (otherDerived : Derives first others (.compound other) defined)
    (same : others.head? = tokens.head?) : False := by
  obtain ⟨word, more, rfl, isWord⟩ := simple_word derived
  obtain ⟨otherWord, otherMore, rfl, otherIsWord⟩ := compound_word otherDerived
  obtain rfl : otherWord = word := Option.some.inj same
  simp only [List.mem_cons, List.not_mem_nil, or_false] at isWord otherIsWord
  rcases isWord with isKind | isKind | isKind <;> simp [isKind] at otherIsWord

/-- A statement on one line, in front of others, is determined if those are. It is the same one in
    both programs if anything in it or behind is early. -/
theorem simple_determined {single : Statement} {list : List Statement} (breaks : Breaks gap)
    (derived : SimpleOf tokens single) (ends : LineEnds later)
    (continued : Derives first later (.statements list) defined)
    (ih : Determined last functions others first later (.statements list) defined) :
    Determined last functions others first (gap ++ (tokens ++ later))
      (.statements (single :: list)) defined := by
  rintro bound otherBound rest otherTokens otherRest _ otherDefined embedded otherEmbedded
    ⟨otherList, rfl⟩ fork early
  obtain ⟨-, located, enough, follows⟩ := embedded
  obtain ⟨otherDerived, otherLocated, otherEnough, otherFollows⟩ := otherEmbedded
  simp only [List.append_assoc] at fork early
  cases otherDerived with
  | listEnd _ otherGap otherBreaks =>
      obtain ⟨word, more, rfl, starts⟩ := simple_front derived
      exact absurd otherFollows (fork.list_goesOn early breaks otherBreaks (starts_inline starts))
  | simple _ otherGap otherTokens otherLater otherSingle otherList _ otherBreaks otherDerived
      otherEnds otherContinued =>
      simp only [List.append_assoc] at fork
      obtain ⟨-, lineEarly, line⟩ := fork.fronts early breaks otherBreaks (simple_front derived)
        (simple_front otherDerived)
      obtain ⟨rfl, behind⟩ := line.simple lineEarly derived otherDerived
        (lineCanEnd_of_ends ends follows) (lineCanEnd_of_ends otherEnds otherFollows)
      have following := ih.foreruns ⟨continued, located, enough, follows⟩
        ⟨otherContinued, otherLocated, otherEnough, otherFollows⟩ ⟨otherList, rfl⟩ behind
      intro environment
      simp only [statements, simple_settled derived (Check.definition functions bound)
        (Check.definition others otherBound)]
      exact foreruns_after fun next => following next
  | compound _ otherGap otherTokens otherLater otherSingle otherList _ _ otherBreaks otherDerived =>
      simp only [List.append_assoc] at fork
      obtain ⟨begins, -, -⟩ := fork.fronts early breaks otherBreaks (simple_front derived)
        (compound_front otherDerived)
      exact (words_apart derived otherDerived begins).elim

/-- A statement with a block at its end, in front of others, is determined if it is by itself and
    those are. -/
theorem compound_determined {single : Statement} {list : List Statement} (breaks : Breaks gap)
    (derived : Derives first tokens (.compound single) defined)
    (continued : Derives (first + defined.length) later (.statements list) laterDefined)
    (ih : Determined last functions others first tokens (.compound single) defined)
    (laterIh : Determined last functions others (first + defined.length) later (.statements list)
      laterDefined) :
    Determined last functions others first (gap ++ (tokens ++ later))
      (.statements (single :: list)) (defined ++ laterDefined) := by
  rintro bound otherBound rest otherTokens otherRest _ otherDefined embedded otherEmbedded
    ⟨otherList, rfl⟩ fork early
  obtain ⟨-, located, enough, follows⟩ := embedded
  obtain ⟨otherDerived, otherLocated, otherEnough, otherFollows⟩ := otherEmbedded
  simp only [List.append_assoc] at fork early
  cases otherDerived with
  | listEnd _ otherGap otherBreaks =>
      obtain ⟨word, more, rfl, starts⟩ := compound_front derived
      exact absurd otherFollows (fork.list_goesOn early breaks otherBreaks (starts_inline starts))
  | simple _ otherGap otherTokens otherLater otherSingle otherList _ otherBreaks otherDerived =>
      simp only [List.append_assoc] at fork
      obtain ⟨begins, -, -⟩ := fork.fronts early breaks otherBreaks (compound_front derived)
        (simple_front otherDerived)
      exact (words_apart otherDerived derived begins.symm).elim
  | compound _ otherGap otherTokens otherLater otherSingle otherList otherDefined _ otherBreaks
      otherDerived otherContinued =>
      simp only [List.append_assoc] at fork
      have ends := chainEnds_of_statements continued follows
      have otherEnds := chainEnds_of_statements otherContinued otherFollows
      obtain ⟨-, -, parts⟩ := fork.fronts early breaks otherBreaks (compound_front derived)
        (compound_front otherDerived)
      have settled (behind : ¬ Late last (later ++ rest)) :
          (Phrase.compound otherSingle) = .compound single ∧ otherDefined = defined ∧
            Fork last (later ++ rest) (otherLater ++ otherRest) := by
        obtain ⟨rfl, same⟩ := parts.compound behind derived otherDerived ends otherEnds
        exact ⟨rfl, same⟩
      rcases parts_determined (.leading derived located enough ends)
        (.following continued located enough follows)
        (.leading otherDerived otherLocated otherEnough otherEnds)
        (.following otherContinued otherLocated otherEnough otherFollows) ⟨otherSingle, rfl⟩
        ⟨otherList, rfl⟩ parts settled ih laterIh with
        ⟨beyond, inside⟩ | ⟨same, inside, after⟩
      · intro environment
        simp only [statements]
        exact foreruns_bind (inside environment) beyond
      · cases same
        intro environment
        simp only [statements, inside _]
        exact foreruns_after fun next => after next

end Cases

/-- Every derived phrase is determined by its early lines. The induction is on the derivation, for
    all programs that it can be compared with. -/
theorem derives_determined {first : Nat} {tokens : List Token} {phrase : Phrase}
    {defined : List Definition} (derived : Derives first tokens phrase defined) :
    Determined last functions others first tokens phrase defined := by
  induction derived with
  | block first colon newline close tokens list defined isColon isBreak isClose nonempty derived
      ih => exact block_determined isClose derived ih
  | chainEnd first =>
      rintro bound otherBound rest otherTokens otherRest _ otherDefined - - ⟨list, final, rfl⟩ - -
      intro environment
      simp only [chain, branches, pure_bind]
      exact (beyond_pure ()).foreruns _
  | otherwise first gap keyword tokens body defined breaks isElse derived ih =>
      exact otherwise_determined breaks isElse derived ih
  | branch first gap keyword condition tokens later comparison body list final defined
      laterDefined breaks isElif compared derived continued ih laterIh =>
      exact continued_determined breaks isElif compared derived continued ih laterIh
  | forRange first keyword counter inside range left start comma stop right tokens body defined
      isFor isCounter isIn isRange opens startBound isComma stopBound closes derived ih =>
      exact forRange_determined isFor isCounter isIn isRange opens startBound isComma stopBound
        closes derived ih
  | whileLoop first keyword condition tokens comparison body defined isWhile compared derived
      ih => exact whileLoop_determined isWhile compared derived ih
  | ifChain first keyword condition tokens later comparison body list final defined
      laterDefined isIf compared derived continued ih laterIh =>
      exact ifChain_determined isIf compared derived continued ih laterIh
  | definition first keyword name left right inner resultTokens tokens parameters returns body
      defined isDef isName opens listed closes result derived ih =>
      exact definition_determined isDef isName opens listed closes result derived ih
  | listEnd first gap breaks =>
      rintro bound otherBound rest otherTokens otherRest _ otherDefined - - ⟨list, rfl⟩ - -
      intro environment
      simp only [statements]
      exact (beyond_pure environment).foreruns _
  | simple first gap tokens later single list defined breaks derived ends continued ih =>
      exact simple_determined breaks derived ends continued ih
  | compound first gap tokens later single list defined laterDefined breaks derived continued ih
      laterIh => exact compound_determined breaks derived continued ih laterIh

end Check

/-- The bodies of two programs whose tokens begin with the same lines. -/
theorem bodies_linked {last : Nat} {tokens others : List Token} {program other : Program}
    (derived : ProgramOf tokens program) (otherDerived : ProgramOf others other)
    (fork : Fork last tokens others) :
    Check.PhraseLinked (Check.Foreruns last)
      (Check.definition program.functions program.definitionBound)
      (Check.definition other.functions other.definitionBound) (.statements program.body)
      (.statements other.body) := by
  have enough := program.length_le_definitionBound
  have otherEnough := other.length_le_definitionBound
  rw [← Nat.zero_add (List.length _)] at enough otherEnough
  have located (functions : List Definition) : Located functions 0 functions :=
    fun index _ => by rw [Nat.zero_add]
  have atEnd : ListEnds [] := by simp [ListEnds]
  cases derived with
  | program gap clauseTokens tokens clause body functions breaks imported ends derived =>
      cases otherDerived with
      | program otherGap otherClauseTokens others otherClause otherBody otherFunctions otherBreaks
          otherImported otherEnds otherDerived =>
          by_cases late : Late last (gap ++ (clauseTokens ++ tokens))
          · exact (Check.derives_beyond derived (located functions) enough
              (late_append.mp (late_append.mp late).2).2).foreruns _ _
          · have bodies := fork.clause late breaks otherBreaks imported otherImported
            apply Check.Determined.foreruns (Check.derives_determined derived)
              ⟨derived, located functions, enough, atEnd⟩
              ⟨otherDerived, located otherFunctions, otherEnough, atEnd⟩ ⟨otherBody, rfl⟩
            rwa [List.append_nil, List.append_nil]

/-- A failure of static analysis on an early line is also that of every program whose tokens
    begin with the same lines. -/
theorem analyze_forked {last : Nat} {tokens others : List Token} {program other : Program}
    (derived : ProgramOf tokens program) (otherDerived : ProgramOf others other)
    (fork : Fork last tokens others) (bindings : List Binding) (signatures : List Signature)
    {failure : Failure} (failed : (program.analyze bindings signatures).outcome = .error failure)
    (early : failure.diagnostic.line ≤ last) :
    (other.analyze bindings signatures).outcome = .error failure := by
  obtain ⟨after, run⟩ := (Traced.outcome_error_iff _ _).mp failed
  apply (Traced.outcome_error_iff _ _).mpr
  refine ⟨after, Traced.bind_error_iff.mpr (.inl ?_)⟩
  rcases Traced.bind_error_iff.mp run with run | ⟨_, _, _, run⟩
  · exact bodies_linked derived otherDerived fork _ _ _ _ _ run early
  · cases run

end Offside
