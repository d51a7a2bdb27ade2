import Offside.Proofs.Syntax.Fork
import Offside.Proofs.Typing.Agreement

/-!
# Early and late faults

A check goes through the source from its first line to its last and stops at the first
fault. So whether it stops on an early line cannot depend on what stands behind that line.

Two things are said here of one check. What stands on late lines has its faults there, and
a phrase is checked in the same way in two programs if both have the functions that the
phrase defines. The third says how two checks with a common beginning compare: a failure of
the first on an early line is the failure of the second.
-/

namespace Offside

open Grammar

namespace Check

variable {α β : Type} {last : Nat}

/-- The check fails on late lines only. -/
def Beyond (last : Nat) (check : Check α) : Prop :=
  ∀ site events failure after, check site events = .error failure after →
    last < failure.diagnostic.line

/-- Where the first check fails on an early line, the second one fails in the same way. -/
def Foreruns (last : Nat) (check other : Check α) : Prop :=
  ∀ site events failure after, check site events = .error failure after →
    failure.diagnostic.line ≤ last → other site events = .error failure after

/-- A check that fails on late lines only foreruns every other, as it never fails on an early
    one. -/
theorem Beyond.foreruns {check : Check α} (beyond : Beyond last check) (other : Check α) :
    Foreruns last check other :=
  fun site events failure after failed early =>
    absurd early (Nat.not_le.mpr (beyond site events failure after failed))

/-! ## Putting checks together -/

section Rules

variable {check other : Check α} {next otherNext : α → Check β}

/-- Two checks one after the other fail in the first or in the second. -/
theorem bind_error_iff {site : Site} {events after : Array Event} {failure : Failure} :
    (check >>= next) site events = .error failure after ↔
      check site events = .error failure after ∨
        ∃ value between, check site events = .ok value between ∧
          next value site between = .error failure after :=
  Traced.bind_error_iff

/-- Returning a value does not fail at all, so it does not fail early. -/
theorem beyond_pure (value : α) : Beyond last (pure value : Check α) := by
  intro site events failure after failed
  cases failed

/-- Reporting an event does not fail at all, so it does not fail early. -/
theorem beyond_report (event : Event) : Beyond last (report event) := by
  intro site events failure after failed
  cases failed

/-- A sequence fails on late lines only if both of its parts do. -/
theorem beyond_bind (first : Beyond last check) (later : ∀ value, Beyond last (next value)) :
    Beyond last (check >>= next) := by
  intro site events failure after failed
  rcases bind_error_iff.mp failed with failed | ⟨value, between, _, failed⟩
  · exact first site events failure after failed
  · exact later value site between failure after failed

/-- A check inside a step fails on the lines on which it fails by itself. -/
theorem beyond_step (name : String) (inside : Beyond last check) : Beyond last (step name check) :=
  fun site => inside { site with trail := site.trail ++ [name] }

/-- The check of a function body fails on late lines only if it does so at every site, inside of a
    function as well. -/
theorem beyond_inFunction (inside : Beyond last check) :
    Beyond last (withReader (fun site : Site => { site with inFunction := true }) check) :=
  fun site => inside { site with inFunction := true }

/-- What follows the first check has its failures on late lines, so a failure on an early line is
    that of the first check, which foreruns the other. -/
theorem foreruns_bind (first : Foreruns last check other)
    (later : ∀ value, Beyond last (next value)) :
    Foreruns last (check >>= next) (other >>= otherNext) := by
  intro site events failure after failed early
  apply bind_error_iff.mpr
  rcases bind_error_iff.mp failed with failed | ⟨value, between, _, failed⟩
  · exact .inl (first site events failure after failed early)
  · exact absurd early (Nat.not_le.mpr (later value site between failure after failed))

/-- What comes first is one check, so it fails on both sides alike, and what comes after it may be
    compared. -/
theorem foreruns_after (later : ∀ value, Foreruns last (next value) (otherNext value)) :
    Foreruns last (check >>= next) (check >>= otherNext) := by
  intro site events failure after failed early
  apply bind_error_iff.mpr
  rcases bind_error_iff.mp failed with failed | ⟨value, between, passed, failed⟩
  · exact .inl failed
  · exact .inr ⟨value, between, passed, later value site between failure after failed early⟩

/-- Checks inside steps of one name are compared without the steps, since these add the same to both
    trails. -/
theorem foreruns_step (name : String) (inside : Foreruns last check other) :
    Foreruns last (step name check) (step name other) :=
  fun site => inside { site with trail := site.trail ++ [name] }

/-- Checks of function bodies are compared as checks inside of a function. -/
theorem foreruns_inFunction (inside : Foreruns last check other) :
    Foreruns last (withReader (fun site : Site => { site with inFunction := true }) check)
      (withReader (fun site : Site => { site with inFunction := true }) other) :=
  fun site => inside { site with inFunction := true }

/-- A step that leaves the environment as it is may be compared by its check. -/
theorem foreruns_unchanged (name : String) {check other : Check Unit} (environment : Environment)
    (inside : Foreruns last check other) :
    Foreruns last (do step name check; return environment)
      (do step name other; return environment) :=
  foreruns_bind (foreruns_step name inside) fun _ => beyond_pure environment

/-- A check inside a scope fails exactly if it fails by itself, and leaving the scope is still
    reported. -/
theorem guarded_error_iff {depth : Nat} {check : Check Environment} {site : Site}
    {events after : Array Event} {failure : Failure} :
    guarded depth check site events = .error failure after ↔
      ∃ between, check site events = .error failure between ∧
        after = between.push (.leftScope depth) := by
  change EStateM.tryCatch (check site) _ events = _ ↔ _
  rw [EStateM.tryCatch]
  cases check site events with
  | ok value between => simp
  | error other between =>
      change EStateM.Result.error other (between.push (.leftScope depth)) = _ ↔ _
      grind

/-- A block fails on late lines only if what is in it does. -/
theorem beyond_inBlock {environment : Environment} {bindings : List Binding}
    {check : Environment → Check Environment}
    (inside : Beyond last (check (environment.enter bindings))) :
    Beyond last (inBlock environment bindings check) := by
  refine beyond_bind (beyond_report _) fun _ => beyond_bind ?_ fun _ => beyond_report _
  intro site events failure after failed
  obtain ⟨between, failed, _⟩ := guarded_error_iff.mp failed
  exact inside site events failure between failed

/-- Leaving a block is reported in the same way whatever was in it. -/
theorem foreruns_inBlock {environment : Environment} {bindings : List Binding}
    {check other : Environment → Check Environment}
    (inside : Foreruns last (check (environment.enter bindings))
      (other (environment.enter bindings))) :
    Foreruns last (inBlock environment bindings check) (inBlock environment bindings other) := by
  refine foreruns_after fun _ => foreruns_bind ?_ fun _ => beyond_report _
  intro site events failure after failed early
  obtain ⟨between, failed, same⟩ := guarded_error_iff.mp failed
  exact guarded_error_iff.mpr ⟨between, inside site events failure between failed early, same⟩

end Rules

end Check

/-! ## Trees of late tokens

A tree is checked like itself, and where both checks fail they fail on lines that match. If
no line matches unless it is late, this is what is to be shown. -/

/-- Tokens match themselves if they are late. -/
def Matching.late (last : Nat) : Matching where
  token first second := first = second ∧ last < first.line
  line first second := first = second ∧ last < first
  same_kind matched := congrArg Token.kind matched.1
  same_lexeme matched := congrArg Token.lexeme matched.1
  same_line matched := ⟨congrArg Token.line matched.1, matched.2⟩

namespace Grammar

variable {leaf : Token → Token → Prop}

/-- An expression is related to itself if all tokens are from which it is derived. -/
theorem expression_self {tokens : List Token} {value : Expression}
    (derived : ExpressionOf tokens value) (all : ∀ token ∈ tokens, leaf token token) :
    value.Related leaf value := by
  cases derived with
  | operand left => exact ⟨all left (by simp), .none⟩
  | operation left operator right =>
      exact ⟨all left (by simp), .some ⟨all operator (by simp), all right (by simp)⟩⟩

/-- A condition is related to itself if all tokens are from which it is derived, the comparator
    included. -/
theorem comparison_self {tokens : List Token} {comparison : Comparison}
    (derived : ComparisonOf tokens comparison) (all : ∀ token ∈ tokens, leaf token token) :
    comparison.Related leaf comparison := by
  cases derived with
  | expression tokens left leftSide => exact ⟨expression_self leftSide all, .none⟩
  | compared leftTokens rightTokens comparator left right leftSide isComparator rightSide =>
      rw [List.forall_mem_append, List.forall_mem_cons] at all
      obtain ⟨lefts, word, rights⟩ := all
      exact ⟨expression_self leftSide lefts, .some ⟨word, expression_self rightSide rights⟩⟩

/-- The tokens of an item are among those of the list that it is in. -/
theorem listed_subset {items : List (List Token)} {tokens : List Token}
    (listed : Listed items tokens) : ∀ item ∈ items, item ⊆ tokens := by
  induction listed with
  | none => simp
  | one item => simp
  | more item next items comma tokens isComma later ih =>
      intro other isOther
      rcases List.mem_cons.mp isOther with rfl | isOther
      · exact List.subset_append_left _ _
      · apply List.subset_append_of_subset_right
        exact List.subset_cons_of_subset _ (ih other isOther)

/-- An argument is related to itself if all tokens are from which it is derived. The induction goes
    through the arguments of calls. -/
theorem argument_self {tokens : List Token} {value : Value} (derived : ArgumentOf tokens value)
    (all : ∀ token ∈ tokens, leaf token token) : value.Related leaf value := by
  induction derived with
  | operand token isOperand => exact .terminal (all token (by simp))
  | call callee left right parts inner isCallee opens closes listed derived ih =>
      refine .call (all callee (by simp)) (List.forall₂_same.mpr ?_)
      intro argument isArgument
      obtain ⟨part, isPart, rfl⟩ := List.mem_map.mp isArgument
      apply ih part isPart
      intro token member
      have inside := listed_subset listed part.1 (List.mem_map_of_mem isPart) member
      exact all token (by simp [inside])

/-- A statement on one line is related to itself if all of its tokens are, whatever is asked of
    placeholders and colons. -/
theorem simple_self {placed : Nat → Nat → Nat → Nat → Prop} {colon : Nat → Nat → Prop}
    {tokens : List Token} {statement : Statement} (derived : SimpleOf tokens statement)
    (all : ∀ token ∈ tokens, leaf token token) :
    Phrase.Related leaf placed colon (.compound statement) (.compound statement) := by
  cases derived with
  | declaration name _ type _ tokens value _ _ _ _ initial =>
      simp only [List.forall_mem_cons] at all
      obtain ⟨named, -, typed, -, values⟩ := all
      apply Phrase.Related.declaration named typed
      cases initial with
      | call tokens callee arguments derived => exact argument_self derived values
      | literal token => exact .terminal (values token (by simp))
  | manipulation target assign tokens value _ _ assigned =>
      simp only [List.forall_mem_cons] at all
      exact .manipulation all.1 (expression_self assigned all.2.2)
  | call tokens callee arguments derived => exact .call (argument_self derived all)
  | returnValue keyword value => exact .returnValue (all keyword (by simp)) (all value (by simp))

end Grammar

/-- A bound of a range stands on its line, for it is a number or a name. -/
theorem Grammar.Bound.inline {token : Token} (isBound : Bound token) : token.Inline := by
  rcases isBound with isNumber | isName
  · exact inline_of_kind isNumber (by decide) (by decide)
  · exact inline_of_kind isName (by decide) (by decide)

namespace Check

variable {last : Nat} {tokens : List Token}

/-- Every name is spelled, for there is always a late token that has it as its text. -/
theorem late_spells (name : String) : (Matching.late last).Spells name :=
  .inr ⟨⟨.identifier, name, last + 1⟩, _, ⟨rfl, Nat.lt_succ_self last⟩, rfl⟩

/-- All types of every environment are spelled, since every name is. -/
theorem late_spelled (environment : Environment) : environment.Spelled (Matching.late last) where
  bindings _ _ _ _ := late_spells _
  functions _ _ _ _ _ _ := late_spells _

/-- The tokens of a late line match themselves, for none of them is a line break. -/
theorem late_matched (late : Late last tokens) (isInline : Inline tokens) :
    ∀ token ∈ tokens, (Matching.late last).token token token :=
  fun token member => ⟨rfl, late token member (isInline token member)⟩

/-- A check that agrees with itself on late lines fails on late lines only, because the line of a
    failure has to match itself. -/
theorem beyond_of_agrees {α : Type} {same : α → α → Prop} {check : Check α}
    (agrees : Agree (FaultedAlike (.late last)) same check check) : Beyond last check := by
  intro site events failure after failed
  have results := agrees site events events
  rw [failed] at results
  cases results with
  | error alike =>
      obtain ⟨inner, line, otherLine, fault, rfl, _, _, lines, _⟩ := alike
      exact lines.2

/-- Looking up a late leaf fails on a late line, which is that of the leaf. -/
theorem reference_beyond (environment : Environment) {token : Token} (late : last < token.line) :
    Beyond last (reference environment token) := by
  have matched : (Matching.late last).token token token := ⟨rfl, late⟩
  exact beyond_of_agrees (reference_agrees environment matched)

/-- Checking a condition on a late line fails on late lines only. -/
theorem comparison_beyond (environment : Environment) {comparison : Comparison}
    (compared : ComparisonOf tokens comparison) (late : Late last tokens) :
    Beyond last (Check.comparison environment comparison) :=
  beyond_of_agrees (comparison_agrees environment
    (comparison_self compared (late_matched late (comparison_inline compared))))

/-- How placeholders are checked does not matter for a statement without any. -/
theorem simple_settled {single : Statement} (derived : SimpleOf tokens single)
    (hoisted other : Nat → Nat → Environment → Check Environment) (environment : Environment) :
    statement hoisted environment single = statement other environment single := by
  cases derived <;> simp only [statement]

/-- Checking a statement on a late line fails on late lines only, in whichever of the four forms it
    is. -/
theorem simple_beyond {single : Statement} (derived : SimpleOf tokens single)
    (late : Late last tokens) (hoisted : Nat → Nat → Environment → Check Environment)
    (environment : Environment) : Beyond last (statement hoisted environment single) := by
  have placed : HoistedAlike (.late last) (fun _ _ environment => pure environment)
      (fun _ _ environment => pure environment) :=
    fun _ _ _ _ _ spelled => agree_pure ⟨rfl, spelled⟩
  have matched : Phrase.Matches (.late last) (.compound single) (.compound single) :=
    simple_self derived (late_matched late (simple_plain derived).1)
  rw [simple_settled derived hoisted fun _ _ environment => pure environment]
  exact beyond_of_agrees (phrase_agrees placed matched (late_spelled environment)).outward

/-! ## Phrases -/

/-- The phrase is checked with failures on late lines only, in every environment. -/
def PhraseBeyond (last : Nat) (hoisted : Nat → Nat → Environment → Check Environment) :
    Phrase → Prop
  | .block body => ∀ environment, Beyond last (block hoisted environment body)
  | .continuation list otherwise =>
      ∀ environment, Beyond last (chain hoisted environment list otherwise)
  | .compound single => ∀ environment, Beyond last (statement hoisted environment single)
  | .statements list => ∀ environment, Beyond last (statements hoisted environment list)

/-- The checks of two phrases of one sort are related in every environment. -/
def PhraseLinked (relation : ∀ {α : Type}, Check α → Check α → Prop)
    (hoisted other : Nat → Nat → Environment → Check Environment) : Phrase → Phrase → Prop
  | .block body, .block otherBody => ∀ environment,
      relation (block hoisted environment body) (block other environment otherBody)
  | .continuation list otherwise, .continuation others otherLast => ∀ environment,
      relation (chain hoisted environment list otherwise) (chain other environment others otherLast)
  | .compound single, .compound otherSingle => ∀ environment,
      relation (statement hoisted environment single) (statement other environment otherSingle)
  | .statements list, .statements others => ∀ environment,
      relation (statements hoisted environment list) (statements other environment others)
  | _, _ => True

/-- The check of a phrase with failures on late lines only foreruns that of any phrase of its sort,
    in any program. -/
theorem PhraseBeyond.foreruns {hoisted : Nat → Nat → Environment → Check Environment}
    {phrase : Phrase} (beyond : PhraseBeyond last hoisted phrase)
    (other : Nat → Nat → Environment → Check Environment) (otherPhrase : Phrase) :
    PhraseLinked (Foreruns last) hoisted other phrase otherPhrase := by
  cases phrase <;> cases otherPhrase <;>
    first
    | trivial
    | exact fun environment => (beyond environment).foreruns _

/-- The branch of a chain, and then the rest of the chain. -/
theorem branch_beyond {hoisted : Nat → Nat → Environment → Check Environment} {keyword : Token}
    {condition : Comparison} {body : Block Statement} {list : List (Branch Statement)}
    {otherwise : Option (Block Statement)}
    (compared : ∀ environment, Beyond last (Check.comparison environment condition))
    (inside : PhraseBeyond last hoisted (.block body))
    (later : PhraseBeyond last hoisted (.continuation list otherwise)) :
    PhraseBeyond last hoisted (.continuation (⟨keyword, condition, body⟩ :: list) otherwise) := by
  intro environment
  simp only [chain, branches, bind_assoc]
  apply beyond_bind (compared environment)
  intro _
  apply beyond_bind (beyond_inBlock (inside _))
  intro _
  exact later environment

/-- The last one of some functions that are found in a program stands right behind the others of
    them. -/
theorem located_last {functions : List Definition} {first : Nat} {defined : List Definition}
    {definition : Definition} (located : Located functions first (defined ++ [definition])) :
    Located functions first defined ∧ functions[first + defined.length]? = some definition := by
  obtain ⟨here, last⟩ := located_append located
  exact ⟨here, last 0 (by simp)⟩

/-- A definition is checked through its body, on the functions that are visible where it stands, and
    then it is declared. -/
theorem definition_found {functions : List Definition} {index : Nat} {definition : Definition}
    (found : functions[index]? = some definition) (bound line : Nat) (environment : Environment) :
    Check.definition functions (bound + 1) index line environment = do
      withReader (fun site => { site with inFunction := true }) do
        inBlock
          (.seeded [] (environment.declareFunction definition.signature).visibleFunctions)
          definition.bindings fun inner =>
            block (Check.definition functions bound) inner definition.body
      return environment.declareFunction definition.signature := by
  rw [definition_succ]
  simp only [entered, found]

/-- What stands on late lines fails on late lines only, through placeholders as well, if the
    functions are those that the phrase defines. The induction is on the derivation. -/
theorem derives_beyond {functions : List Definition} {first : Nat} {phrase : Phrase}
    {defined : List Definition} (derived : Derives first tokens phrase defined)
    (located : Located functions first defined) {bound : Nat}
    (enough : first + defined.length ≤ bound) (late : Late last tokens) :
    PhraseBeyond last (Check.definition functions bound) phrase := by
  induction derived generalizing bound with
  | block first colon newline close tokens list defined isColon isBreak isClose nonempty derived
      ih =>
      simp only [late_cons, late_append] at late
      intro environment
      simp only [block]
      exact ih located enough late.2.2.1 environment
  | chainEnd first =>
      intro environment
      simp only [chain, branches, pure_bind]
      exact beyond_pure ()
  | otherwise first gap keyword tokens body defined breaks isElse derived ih =>
      simp only [late_cons, late_append] at late
      intro environment
      simp only [chain, branches, pure_bind]
      exact beyond_inBlock (ih located enough late.2.2 _)
  | branch first gap keyword condition tokens later comparison body list otherwise defined
      laterDefined breaks isElif compared derived continued ih laterIh =>
      simp only [late_cons, late_append] at late
      obtain ⟨-, -, lateCondition, lateBody, lateLater⟩ := late
      obtain ⟨here, after⟩ := located_append located
      rw [List.length_append] at enough
      exact branch_beyond (fun environment => comparison_beyond environment compared lateCondition)
        (ih here (by omega) lateBody) (laterIh after (by omega) lateLater)
  | forRange first keyword counter inside range left start comma stop right tokens body defined
      isFor isCounter isIn isRange opens startBound isComma stopBound closes derived ih =>
      simp only [late_cons] at late
      obtain ⟨-, -, -, -, -, lateStart, -, lateStop, -, lateBody⟩ := late
      intro environment
      simp only [statement]
      apply beyond_bind (beyond_step "for" ?_) fun _ => beyond_pure _
      apply beyond_bind (reference_beyond environment (lateStart startBound.inline))
      intro _
      apply beyond_bind (reference_beyond environment (lateStop stopBound.inline))
      intro _
      exact beyond_inBlock (ih located enough lateBody _)
  | whileLoop first keyword condition tokens comparison body defined isWhile compared derived
      ih =>
      simp only [late_cons, late_append] at late
      obtain ⟨-, lateCondition, lateBody⟩ := late
      intro environment
      simp only [statement]
      apply beyond_bind (beyond_step "while" ?_) fun _ => beyond_pure _
      apply beyond_bind (comparison_beyond environment compared lateCondition)
      intro _
      exact beyond_inBlock (ih located enough lateBody _)
  | ifChain first keyword condition tokens later comparison body list otherwise defined
      laterDefined isIf compared derived continued ih laterIh =>
      simp only [late_cons, late_append] at late
      obtain ⟨-, lateCondition, lateBody, lateLater⟩ := late
      obtain ⟨here, after⟩ := located_append located
      rw [List.length_append] at enough
      intro environment
      rw [statement_ifChain]
      apply beyond_bind (beyond_step "if" ?_) fun _ => beyond_pure _
      exact branch_beyond (fun environment => comparison_beyond environment compared lateCondition)
        (ih here (by omega) lateBody) (laterIh after (by omega) lateLater) environment
  | definition first keyword name left right inner resultTokens tokens parameters returns body
      defined isDef isName opens listed closes result derived ih =>
      simp only [late_cons, late_append] at late
      obtain ⟨-, -, -, -, -, -, lateBody⟩ := late
      obtain ⟨here, found⟩ := located_last located
      rw [List.length_append, List.length_singleton] at enough
      obtain ⟨bound, rfl⟩ : ∃ smaller, bound = smaller + 1 := ⟨bound - 1, by omega⟩
      intro environment
      simp only [statement, definition_found found]
      apply beyond_step
      apply beyond_bind (beyond_inFunction ?_) fun _ => beyond_pure _
      exact beyond_inBlock (ih here (by omega) lateBody _)
  | listEnd first gap breaks =>
      intro environment
      simp only [statements]
      exact beyond_pure environment
  | simple first gap tokens later single list defined breaks derived ends continued ih =>
      simp only [late_append] at late
      obtain ⟨-, lateFirst, lateLater⟩ := late
      intro environment
      simp only [statements]
      exact beyond_bind (simple_beyond derived lateFirst _ environment)
        (ih located enough lateLater)
  | compound first gap tokens later single list defined laterDefined breaks derived continued ih
      laterIh =>
      simp only [late_append] at late
      obtain ⟨-, lateFirst, lateLater⟩ := late
      obtain ⟨here, after⟩ := located_append located
      rw [List.length_append] at enough
      intro environment
      simp only [statements]
      exact beyond_bind (ih here (by omega) lateFirst environment)
        (laterIh after (by omega) lateLater)

/-- The check of a chain is settled by those of its next block and of what continues it behind
    that. -/
theorem branch_settled {hoisted other : Nat → Nat → Environment → Check Environment}
    (keyword : Token) (condition : Comparison) {body : Block Statement}
    {list : List (Branch Statement)} {otherwise : Option (Block Statement)}
    (inside : PhraseLinked Eq hoisted other (.block body) (.block body))
    (later : PhraseLinked Eq hoisted other (.continuation list otherwise)
      (.continuation list otherwise)) :
    PhraseLinked Eq hoisted other (.continuation (⟨keyword, condition, body⟩ :: list) otherwise)
      (.continuation (⟨keyword, condition, body⟩ :: list) otherwise) := by
  intro environment
  have rest := later environment
  unfold chain at rest
  simp only [chain, branches, bind_assoc, inside _, rest]

/-- A phrase is checked in the same way in every program that has the functions which the
    phrase defines at their places. -/
theorem derives_settled {functions others : List Definition} {first : Nat} {phrase : Phrase}
    {defined : List Definition} (derived : Derives first tokens phrase defined)
    (located : Located functions first defined) (otherLocated : Located others first defined)
    {bound otherBound : Nat} (enough : first + defined.length ≤ bound)
    (otherEnough : first + defined.length ≤ otherBound) :
    PhraseLinked Eq (Check.definition functions bound) (Check.definition others otherBound) phrase
      phrase := by
  induction derived generalizing bound otherBound with
  | block first colon newline close tokens list defined isColon isBreak isClose nonempty derived
      ih =>
      intro environment
      simp only [block]
      exact ih located otherLocated enough otherEnough environment
  | chainEnd first =>
      intro environment
      simp only [chain, branches]
  | otherwise first gap keyword tokens body defined breaks isElse derived ih =>
      have inside := ih located otherLocated enough otherEnough
      intro environment
      simp only [chain, branches, inside _]
  | branch first gap keyword condition tokens later comparison body list otherwise defined
      laterDefined breaks isElif compared derived continued ih laterIh =>
      obtain ⟨here, after⟩ := located_append located
      obtain ⟨otherHere, otherAfter⟩ := located_append otherLocated
      rw [List.length_append, ← Nat.add_assoc] at enough otherEnough
      have leading := ih here otherHere (Nat.le_of_add_right_le enough)
        (Nat.le_of_add_right_le otherEnough)
      have following := laterIh after otherAfter enough otherEnough
      exact branch_settled keyword comparison leading following
  | forRange first keyword counter inside range left start comma stop right tokens body defined
      isFor isCounter isIn isRange opens startBound isComma stopBound closes derived ih =>
      have inside := ih located otherLocated enough otherEnough
      intro environment
      simp only [statement, inside _]
  | whileLoop first keyword condition tokens comparison body defined isWhile compared derived
      ih =>
      have inside := ih located otherLocated enough otherEnough
      intro environment
      simp only [statement, inside _]
  | ifChain first keyword condition tokens later comparison body list otherwise defined
      laterDefined isIf compared derived continued ih laterIh =>
      obtain ⟨here, after⟩ := located_append located
      obtain ⟨otherHere, otherAfter⟩ := located_append otherLocated
      rw [List.length_append, ← Nat.add_assoc] at enough otherEnough
      have leading := ih here otherHere (Nat.le_of_add_right_le enough)
        (Nat.le_of_add_right_le otherEnough)
      have following := laterIh after otherAfter enough otherEnough
      have inside := branch_settled keyword comparison leading following
      intro environment
      rw [statement_ifChain, statement_ifChain, inside environment]
  | definition first keyword name left right inner resultTokens tokens parameters returns body
      defined isDef isName opens listed closes result derived ih =>
      obtain ⟨here, found⟩ := located_last located
      obtain ⟨otherHere, otherFound⟩ := located_last otherLocated
      rw [List.length_append, List.length_singleton] at enough otherEnough
      obtain ⟨bound, rfl⟩ : ∃ smaller, bound = smaller + 1 := ⟨bound - 1, by omega⟩
      obtain ⟨otherBound, rfl⟩ : ∃ smaller, otherBound = smaller + 1 := ⟨otherBound - 1, by omega⟩
      have inside := ih here otherHere (Nat.le_of_succ_le_succ enough)
        (Nat.le_of_succ_le_succ otherEnough)
      intro environment
      simp only [statement, definition_found found, definition_found otherFound, inside _]
  | listEnd first gap breaks =>
      intro environment
      simp only [statements]
  | simple first gap tokens later single list defined breaks derived ends continued ih =>
      have following := ih located otherLocated enough otherEnough
      intro environment
      simp only [statements, simple_settled derived _ (Check.definition others otherBound),
        following _]
  | compound first gap tokens later single list defined laterDefined breaks derived continued ih
      laterIh =>
      obtain ⟨here, after⟩ := located_append located
      obtain ⟨otherHere, otherAfter⟩ := located_append otherLocated
      rw [List.length_append, ← Nat.add_assoc] at enough otherEnough
      have leading := ih here otherHere (Nat.le_of_add_right_le enough)
        (Nat.le_of_add_right_le otherEnough)
      have following := laterIh after otherAfter enough otherEnough
      intro environment
      simp only [statements, leading _, following _]

end Check

end Offside
