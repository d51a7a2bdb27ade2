import Offside.Proofs.Layout.Heads
import Offside.Proofs.Syntax.Place

/-!
# Depths of statements

In the tokens of a program, the heads are the first tokens of its statements, of the
branches that continue a chain, and of the import clause. Where a statement stands,
the cursor has counted exactly the blocks around it. A branch that continues a chain
comes right after the end of a block, and the line before that end opens no block,
because a block is not empty.

Both are said at once: something holds of all statements, by their depth and line,
exactly when it holds of the heads that start a statement, and the other heads are
always as described.
-/

namespace Offside

open Grammar

/-- What is asked of a head: the property if it starts a statement; otherwise a block
    end before it, with no header in the line before that. -/
def HeadFits (holds : Int → Nat → Prop) (head : Cursor × Token) : Prop :=
  (StartsStatement head.2 → holds head.1.depth head.2.line) ∧
    (¬ StartsStatement head.2 → head.1.closed = true ∧ head.1.ending ≠ .colon)

/-- All heads of the tokens are as asked. -/
def HeadsFit (holds : Int → Nat → Prop) (cursor : Cursor) (tokens : List Token) : Prop :=
  ∀ head ∈ heads cursor tokens, HeadFits holds head

/-- The property by depth and line, for a statement at its place. -/
def ByDepth (holds : Int → Nat → Prop) (place : Place) (statement : Statement) : Prop :=
  holds place.depth statement.line

/-- The functions are those of the list from `first` on. -/
def Located (functions : List Definition) (first : Nat) (defined : List Definition) : Prop :=
  ∀ index < defined.length, functions[first + index]? = defined[index]?

variable {holds : Int → Nat → Prop}

/-- What is asked of the heads of two stretches is asked of both, of the second one with the cursor
    that has run through the first. -/
theorem headsFit_append {cursor : Cursor} {first second : List Token} :
    HeadsFit holds cursor (first ++ second) ↔
      HeadsFit holds cursor first ∧ HeadsFit holds (cursor.run first) second := by
  unfold HeadsFit
  rw [heads_append]
  exact List.forall_mem_append

/-- Without tokens there is no head to ask anything of, whatever the cursor is. -/
theorem headsFit_nil {cursor : Cursor} : HeadsFit holds cursor [] := by
  simp [HeadsFit, heads]

/-- Functions that are found from a number on are found in two parts, the second one from the number
    that follows the first. Derivations put lists of functions together in this way. -/
theorem located_append {functions : List Definition} {first : Nat}
    {defined others : List Definition} (located : Located functions first (defined ++ others)) :
    Located functions first defined ∧ Located functions (first + defined.length) others := by
  constructor
  · intro index inside
    have found := located index (by simp; omega)
    rwa [List.getElem?_append_left inside] at found
  · intro index inside
    have found := located (defined.length + index) (by simp; omega)
    rwa [List.getElem?_append_right (by omega), Nat.add_sub_cancel_left, ← Nat.add_assoc] at found

/-- Statements before a place in its list do not make it deeper. -/
@[simp]
theorem Place.depth_after (place : Place) (more : List Statement) :
    (place.after more).depth = place.depth := by
  cases place <;> rfl

/-! ## Headers -/

/-- The first token of a line is a head, and the only one of the line. -/
theorem headsFit_line {cursor : Cursor} (fresh : cursor.fresh = true) {first : Token}
    {rest : List Token} (isInline : Inline (first :: rest)) (tokens : List Token) :
    (cursor.run (first :: rest)).fresh = false ∧
      (cursor.run (first :: rest)).depth = cursor.depth ∧
      (HeadsFit holds cursor (first :: rest ++ tokens) ↔
        HeadFits holds (cursor, first) ∧ HeadsFit holds (cursor.run (first :: rest)) tokens) := by
  obtain ⟨last, _, oneHead, run⟩ := heads_line isInline fresh
  rw [headsFit_append, run]
  exact ⟨rfl, rfl, by simp [HeadsFit, oneHead]⟩

/-- A token that starts a statement is asked for the property only. -/
theorem headFits_statement {cursor : Cursor} {token : Token} (starts : StartsStatement token) :
    HeadFits holds (cursor, token) ↔ holds cursor.depth token.line := by
  simp [HeadFits, starts]

/-- A token that continues a chain, where it does, is asked for nothing. -/
theorem headFits_continuation {cursor : Cursor} {token : Token}
    (noStatement : ¬ StartsStatement token) (closed : cursor.closed = true)
    (plain : cursor.ending ≠ .colon) : HeadFits holds (cursor, token) := by
  simp [HeadFits, noStatement, closed, plain]

/-! ## Phrases -/

/-- After a block: one level less than inside it, and no header in the line before its
    end. -/
def Cursor.PastBlock (cursor : Cursor) (depth : Int) : Prop :=
  ∃ ending, ending ≠ .colon ∧ cursor = ⟨depth, ending, true, true⟩

/-- Statements may start: a line break or block end comes before them, or they start
    with a line break themselves. -/
def Cursor.Ready (cursor : Cursor) (tokens : List Token) : Prop :=
  cursor.fresh = true ∨ cursor.ending ≠ .colon ∧ LineEnds tokens

/-- The heads of a phrase are as asked exactly when the property holds throughout it,
    and the cursor leaves it at the depth at which it came. -/
def PhraseFits (holds : Int → Nat → Prop) (functions : List Definition) (tokens : List Token) :
    Phrase → Prop
  | .block body =>
      ∀ (cursor : Cursor) (place : Place), cursor.fresh = false →
        (place.depth : Int) = cursor.depth + 1 →
        (HeadsFit holds cursor tokens ↔
          ThroughoutAll functions (ByDepth holds) place body.statements) ∧
        (cursor.run tokens).PastBlock cursor.depth
  | .continuation branches otherwise =>
      ∀ (cursor : Cursor) (place : Place), cursor.PastBlock cursor.depth →
        (place.depth : Int) = cursor.depth + 1 →
        (HeadsFit holds cursor tokens ↔
          (∀ branch ∈ branches,
            ThroughoutAll functions (ByDepth holds) place branch.body.statements) ∧
          ∀ body ∈ otherwise,
            ThroughoutAll functions (ByDepth holds) place body.statements) ∧
        (cursor.run tokens).PastBlock cursor.depth
  | .compound statement =>
      ∀ (cursor : Cursor) (place : Place), cursor.fresh = true →
        (place.depth : Int) = cursor.depth →
        (HeadsFit holds cursor tokens ↔
          Throughout functions (ByDepth holds) place statement) ∧
        (cursor.run tokens).PastBlock cursor.depth
  | .statements statements =>
      ∀ (cursor : Cursor) (place : Place), cursor.Ready tokens →
        (place.depth : Int) = cursor.depth →
        (HeadsFit holds cursor tokens ↔
          ThroughoutAll functions (ByDepth holds) place statements) ∧
        (cursor.run tokens).depth = cursor.depth ∧
        (statements = [] → (cursor.run tokens).ending = cursor.ending) ∧
        (statements ≠ [] → (cursor.run tokens).ending ≠ .colon)

/-- Line breaks before statements are no heads and leave the depth as it is. If any of them is
    there, what follows stands on a fresh line. -/
theorem gap_run {gap : List Token} (breaks : Breaks gap) {cursor : Cursor}
    (plain : cursor.fresh = true ∨ cursor.ending ≠ .colon) :
    heads cursor gap = [] ∧ (cursor.run gap).depth = cursor.depth ∧
      (cursor.run gap).ending = cursor.ending ∧
      (cursor.fresh = true ∨ gap ≠ [] → (cursor.run gap).fresh = true) := by
  by_cases fresh : cursor.fresh = true
  · obtain ⟨noHeads, same⟩ := heads_breaks breaks fresh
    rw [same]
    exact ⟨noHeads, rfl, rfl, fun _ => fresh⟩
  · cases gap with
    | nil => exact ⟨rfl, rfl, rfl, fun reached => reached.resolve_right fun absent => absent rfl⟩
    | cons token gap =>
        have isBreak := breaks token (by simp)
        have notInline : ¬ token.Inline := fun isInline => isInline.1 isBreak
        have step : cursor.step token = ⟨cursor.depth, cursor.ending, cursor.closed, true⟩ := by
          simp [Cursor.step, isBreak, plain.resolve_left fresh]
        obtain ⟨noHeads, same⟩ := heads_breaks
          (fun other member => breaks other (List.mem_cons_of_mem token member))
          (show (cursor.step token).fresh = true by rw [step])
        rw [heads, if_neg (by simp [notInline]), Cursor.run_cons, same, noHeads, step]
        exact ⟨rfl, rfl, rfl, fun _ => rfl⟩

/-- A block fits if the statements inside it do, one level deeper. The line break after its colon is
    what makes the cursor count it, and its end takes the level back. -/
theorem block_fits {functions : List Definition} {colon newline close : Token}
    {tokens : List Token} {line : Nat} {statements : List Statement} (isColon : colon.kind = .colon)
    (isBreak : newline.kind = .newline) (isClose : close.kind = .closeBlock)
    (nonempty : statements ≠ [])
    (inside : PhraseFits holds functions tokens (.statements statements)) :
    PhraseFits holds functions (colon :: newline :: (tokens ++ [close]))
      (.block ⟨line, statements⟩) := by
  intro cursor place notFresh depth
  have colonInline : colon.Inline := inline_of_kind isColon (by decide) (by decide)
  have newlineNotInline : ¬ newline.Inline := fun isInline => isInline.1 isBreak
  have closeNotInline : ¬ close.Inline := fun isInline => isInline.2 isClose
  have opened : (cursor.step colon).step newline = ⟨cursor.depth + 1, .colon, false, true⟩ := by
    rw [cursor.step_inline colonInline]
    simp [Cursor.step, isBreak, isColon]
  obtain ⟨fits, sameDepth, _, notColon⟩ :=
    inside ⟨cursor.depth + 1, .colon, false, true⟩ place (Or.inl rfl) depth
  constructor
  · rw [← fits]
    simp only [HeadsFit, heads, notFresh, newlineNotInline, Bool.false_eq_true, false_and, and_false,
      if_false, opened, heads_append, closeNotInline, List.append_nil]
  · rw [Cursor.run_cons, Cursor.run_cons, opened, Cursor.run_append, Cursor.run_cons,
      Cursor.run_nil, Cursor.step_close _ isClose, sameDepth]
    exact ⟨_, notColon nonempty, by simp⟩

/-- A header and its block, with nothing after them: the keyword is asked as a head, and everything
    in the block as statements one level deeper. Past the block the depth is the old one. -/
theorem header_fits {functions : List Definition} {keyword : Token} {rest tokens : List Token}
    {body : Block Statement} (isKeyword : keyword.Inline) (isInline : Inline rest)
    (block : PhraseFits holds functions tokens (.block body)) {cursor : Cursor} {place : Place}
    (fresh : cursor.fresh = true) (depth : (place.depth : Int) = cursor.depth + 1) :
    (HeadsFit holds cursor (keyword :: (rest ++ tokens)) ↔
      HeadFits holds (cursor, keyword) ∧
        ThroughoutAll functions (ByDepth holds) place body.statements) ∧
    (cursor.run (keyword :: (rest ++ tokens))).PastBlock cursor.depth := by
  obtain ⟨notFresh, sameDepth, fits⟩ :=
    headsFit_line fresh (inline_cons isKeyword isInline) tokens
  obtain ⟨inside, past⟩ := block (cursor.run (keyword :: rest)) place notFresh
    (by rw [sameDepth, depth])
  rw [← List.cons_append, fits, inside, Cursor.run_append]
  exact ⟨Iff.rfl, by rwa [sameDepth] at past⟩

/-- A statement that is a header with one block. Both loops are of this form, and what differs
    between them stands on the line of the header. -/
theorem loop_fits {functions : List Definition} {keyword : Token} {rest tokens : List Token}
    {statement : Statement} {counter : Option Token} {body : Block Statement}
    (starts : StartsStatement keyword) (isKeyword : keyword.Inline) (isInline : Inline rest)
    (sameLine : statement.line = keyword.line) (blocks : statement.blocks = [(counter, body)])
    (noDefinition : ∀ index line, statement ≠ .hoisted index line)
    (block : PhraseFits holds functions tokens (.block body)) :
    PhraseFits holds functions (keyword :: (rest ++ tokens)) (.compound statement) := by
  intro cursor place fresh depth
  have inner : ((Place.inBlock place counter []).depth : Int) = cursor.depth + 1 := by
    simp [Place.depth, depth]
  obtain ⟨fits, past⟩ := header_fits isKeyword isInline block fresh inner
  refine ⟨?_, past⟩
  rw [fits, headFits_statement starts, throughout_blocks_iff noDefinition]
  simp [ByDepth, depth, sameLine, blocks]

/-- The last block of a chain, after `else`. Its keyword comes right after the end of a block, so it
    is a head that no statement starts at. -/
theorem otherwise_fits {functions : List Definition} {gap tokens : List Token} {keyword : Token}
    {body : Block Statement} (breaks : Breaks gap) (isElse : keyword.kind = .elseWord)
    (block : PhraseFits holds functions tokens (.block body)) :
    PhraseFits holds functions (gap ++ keyword :: tokens) (.continuation [] (some body)) := by
  rintro cursor place ⟨ending, notColon, isPast⟩ depth
  have fresh : cursor.fresh = true := by rw [isPast]
  have noStatement : ¬ StartsStatement keyword := by simp [StartsStatement, isElse]
  have fitsHere : HeadFits holds (cursor, keyword) :=
    headFits_continuation noStatement (by rw [isPast]) (by rw [isPast]; exact notColon)
  obtain ⟨noHeads, same⟩ := heads_breaks breaks fresh
  obtain ⟨fits, past⟩ := header_fits (inline_of_kind isElse (by decide) (by decide))
    (show Inline [] by simp [Inline]) block fresh depth
  rw [List.nil_append] at fits past
  rw [headsFit_append, Cursor.run_append, same, fits]
  exact ⟨by simp [HeadsFit, noHeads, fitsHere], past⟩

/-- What a chain is after its first branch: a branch or its start, and then the
    rest. -/
theorem branch_fits {functions : List Definition} {keyword : Token}
    {condition tokens later : List Token} {comparison : Comparison} {body : Block Statement}
    {branches : List (Branch Statement)} {otherwise : Option (Block Statement)}
    (isKeyword : keyword.Inline) (compared : ComparisonOf condition comparison)
    (block : PhraseFits holds functions tokens (.block body))
    (continued : PhraseFits holds functions later (.continuation branches otherwise))
    {cursor : Cursor} {place : Place} (fresh : cursor.fresh = true)
    (depth : (place.depth : Int) = cursor.depth + 1) :
    (HeadsFit holds cursor (keyword :: (condition ++ (tokens ++ later))) ↔
      HeadFits holds (cursor, keyword) ∧
        (ThroughoutAll functions (ByDepth holds) place body.statements ∧
          ∀ branch ∈ branches,
            ThroughoutAll functions (ByDepth holds) place branch.body.statements) ∧
        ∀ body ∈ otherwise, ThroughoutAll functions (ByDepth holds) place body.statements) ∧
    (cursor.run (keyword :: (condition ++ (tokens ++ later)))).PastBlock cursor.depth := by
  obtain ⟨fits, past⟩ :=
    header_fits isKeyword (comparison_inline compared) block fresh depth
  have split : keyword :: (condition ++ (tokens ++ later)) =
      (keyword :: (condition ++ tokens)) ++ later := by simp
  have sameDepth : (cursor.run (keyword :: (condition ++ tokens))).depth = cursor.depth := by
    obtain ⟨ending, _, isPast⟩ := past
    rw [isPast]
  obtain ⟨laterFits, laterPast⟩ := continued (cursor.run (keyword :: (condition ++ tokens))) place
    (by rwa [sameDepth]) (by rw [sameDepth, depth])
  rw [split, headsFit_append, Cursor.run_append, fits, laterFits]
  exact ⟨by simp only [and_assoc], by rwa [sameDepth] at laterPast⟩

/-- A further branch of a chain, after `elif`, which is asked like the last block, and then what is
    left of the chain. -/
theorem elif_fits {functions : List Definition} {gap condition tokens later : List Token}
    {keyword : Token} {comparison : Comparison} {body : Block Statement}
    {branches : List (Branch Statement)} {otherwise : Option (Block Statement)}
    (breaks : Breaks gap) (isElif : keyword.kind = .elifWord)
    (compared : ComparisonOf condition comparison)
    (block : PhraseFits holds functions tokens (.block body))
    (continued : PhraseFits holds functions later (.continuation branches otherwise)) :
    PhraseFits holds functions (gap ++ keyword :: (condition ++ (tokens ++ later)))
      (.continuation (⟨keyword, comparison, body⟩ :: branches) otherwise) := by
  rintro cursor place ⟨ending, notColon, isPast⟩ depth
  have fresh : cursor.fresh = true := by rw [isPast]
  have noStatement : ¬ StartsStatement keyword := by simp [StartsStatement, isElif]
  have fitsHere : HeadFits holds (cursor, keyword) :=
    headFits_continuation noStatement (by rw [isPast]) (by rw [isPast]; exact notColon)
  obtain ⟨noHeads, same⟩ := heads_breaks breaks fresh
  obtain ⟨fits, past⟩ := branch_fits (inline_of_kind isElif (by decide) (by decide)) compared
    block continued fresh depth
  rw [headsFit_append, Cursor.run_append, same, fits]
  exact ⟨by simp [HeadsFit, noHeads, fitsHere], past⟩

/-- A chain from its first branch on. Here the keyword starts a statement, and the property is asked
    of the chain as a whole. -/
theorem ifChain_fits {functions : List Definition} {condition tokens later : List Token}
    {keyword : Token} {comparison : Comparison} {body : Block Statement}
    {branches : List (Branch Statement)} {otherwise : Option (Block Statement)}
    (isIf : keyword.kind = .ifWord) (compared : ComparisonOf condition comparison)
    (block : PhraseFits holds functions tokens (.block body))
    (continued : PhraseFits holds functions later (.continuation branches otherwise)) :
    PhraseFits holds functions (keyword :: (condition ++ (tokens ++ later)))
      (.compound (.ifChain (⟨keyword, comparison, body⟩ :: branches) otherwise)) := by
  intro cursor place fresh depth
  have inner : ((Place.inBlock place none []).depth : Int) = cursor.depth + 1 := by
    simp [Place.depth, depth]
  obtain ⟨fits, past⟩ := branch_fits (inline_of_kind isIf (by decide) (by decide)) compared
    block continued fresh inner
  refine ⟨?_, past⟩
  rw [fits, headFits_statement (by simp [StartsStatement, isIf]), throughout_blocks_iff (by simp),
    forall_blocks_ifChain, List.forall_mem_cons]
  simp [ByDepth, depth, Statement.line]

/-- A definition, in whose place a placeholder stands. The body is found by the number of the
    placeholder, and it is as deep as a block in that place is. -/
theorem definition_fits {functions : List Definition} {keyword : Token} {rest tokens : List Token}
    {index : Nat} {definition : Definition} (isDef : keyword.kind = .defWord)
    (isInline : Inline rest) (found : functions[index]? = some definition)
    (block : PhraseFits holds functions tokens (.block definition.body)) :
    PhraseFits holds functions (keyword :: (rest ++ tokens))
      (.compound (.hoisted index keyword.line)) := by
  intro cursor place fresh depth
  have inner : ((Place.inBody place definition []).depth : Int) = cursor.depth + 1 := by
    simp [Place.depth, depth]
  obtain ⟨fits, past⟩ := header_fits (inline_of_kind isDef (by decide) (by decide)) isInline block
    fresh inner
  refine ⟨?_, past⟩
  rw [fits, headFits_statement (by simp [StartsStatement, isDef]), throughout_hoisted_iff found]
  simp [ByDepth, depth, Statement.line]

/-! ## Lists of statements -/

/-- After the line breaks before a statement, the statement is at a head. -/
theorem ready_gap {gap tokens : List Token} (breaks : Breaks gap) {cursor : Cursor}
    (ready : cursor.Ready (gap ++ tokens))
    (front : ∃ token rest, tokens = token :: rest ∧ StartsStatement token) :
    heads cursor gap = [] ∧ (cursor.run gap).depth = cursor.depth ∧
      (cursor.run gap).fresh = true := by
  obtain ⟨noHeads, sameDepth, _, reached⟩ := gap_run breaks (ready.imp_right And.left)
  refine ⟨noHeads, sameDepth, reached ?_⟩
  rcases ready with fresh | ⟨_, lineEnds⟩
  · exact Or.inl fresh
  · right
    rintro rfl
    obtain ⟨token, rest, rfl, starts⟩ := front
    have isBreak := lineEnds token rfl
    simp [StartsStatement, isBreak] at starts

/-- A simple statement is on the line of its first token and has nothing inside. -/
theorem simple_line {tokens : List Token} {statement : Statement}
    (derived : SimpleOf tokens statement) :
    ∃ token rest, tokens = token :: rest ∧ StartsStatement token ∧ statement.line = token.line ∧
      statement.blocks = [] ∧ ∀ index line, statement ≠ .hoisted index line := by
  obtain ⟨token, rest, isCons, starts⟩ := simple_front derived
  refine ⟨token, rest, isCons, starts, ?_⟩
  cases derived with
  | declaration =>
      cases isCons
      exact ⟨rfl, rfl, by simp⟩
  | manipulation =>
      cases isCons
      exact ⟨rfl, rfl, by simp⟩
  | call tokens callee arguments derived =>
      obtain ⟨_, left, others, isCall, _⟩ := call_front derived
      rw [isCall] at isCons
      cases isCons
      exact ⟨rfl, rfl, by simp⟩
  | returnValue =>
      cases isCons
      exact ⟨rfl, rfl, by simp⟩

/-- A simple statement in a list, after line breaks and before the rest of the list. The cursor
    comes to the rest ready, because the line is at its end. -/
theorem simple_fits {functions : List Definition} {gap tokens later : List Token}
    {statement : Statement} {statements : List Statement} (breaks : Breaks gap)
    (derived : SimpleOf tokens statement) (ends : LineEnds later)
    (continued : PhraseFits holds functions later (.statements statements)) :
    PhraseFits holds functions (gap ++ (tokens ++ later)) (.statements (statement :: statements)) := by
  intro cursor place ready depth
  obtain ⟨isInline, last, isLast, notColon⟩ := simple_plain derived
  obtain ⟨token, rest, rfl, starts, sameLine, noBlocks, noDefinition⟩ := simple_line derived
  obtain ⟨noHeads, sameDepth, fresh⟩ := ready_gap breaks ready ⟨token, rest ++ later, rfl, starts⟩
  obtain ⟨_, lineDepth, fits⟩ := headsFit_line fresh isInline later
  have ending : ((cursor.run gap).run (token :: rest)).ending ≠ .colon := by
    rwa [(ending_run_inline isInline last isLast _).1]
  obtain ⟨laterFits, laterDepth, laterNone, laterSome⟩ :=
    continued ((cursor.run gap).run (token :: rest)) (place.after [statement])
      (Or.inr ⟨ending, ends⟩) (by rw [Place.depth_after, lineDepth, sameDepth, depth])
  rw [headsFit_append, Cursor.run_append, Cursor.run_append, fits, laterFits, throughoutAll_cons,
    throughout_blocks_iff noDefinition, headFits_statement starts]
  refine ⟨?_, ?_, by simp, fun _ => ?_⟩
  · simp [HeadsFit, noHeads, noBlocks, ByDepth, sameLine, sameDepth, depth]
  · rw [laterDepth, lineDepth, sameDepth]
  · by_cases more : statements = []
    · rw [laterNone more]
      exact ending
    · exact laterSome more

/-- A statement that ends with a block, in a list. What follows it may stand on the same line, so
    nothing is asked of the rest but that the block has been left. -/
theorem compound_fits {functions : List Definition} {gap tokens later : List Token}
    {statement : Statement} {statements : List Statement} (breaks : Breaks gap)
    (front : ∃ token rest, tokens = token :: rest ∧ StartsStatement token)
    (compound : PhraseFits holds functions tokens (.compound statement))
    (continued : PhraseFits holds functions later (.statements statements)) :
    PhraseFits holds functions (gap ++ (tokens ++ later)) (.statements (statement :: statements)) := by
  intro cursor place ready depth
  have frontWhole : ∃ token rest, tokens ++ later = token :: rest ∧ StartsStatement token := by
    obtain ⟨token, rest, rfl, starts⟩ := front
    exact ⟨token, rest ++ later, rfl, starts⟩
  obtain ⟨noHeads, sameDepth, fresh⟩ := ready_gap breaks ready frontWhole
  obtain ⟨fits, ending, notColon, isPast⟩ :=
    compound (cursor.run gap) place fresh (by rw [sameDepth, depth])
  obtain ⟨laterFits, laterDepth, laterNone, laterSome⟩ :=
    continued ((cursor.run gap).run tokens) (place.after [statement])
      (Or.inl (by rw [isPast])) (by rw [Place.depth_after, isPast, sameDepth, depth])
  rw [headsFit_append, headsFit_append, Cursor.run_append, Cursor.run_append, fits, laterFits,
    throughoutAll_cons]
  refine ⟨by simp [HeadsFit, noHeads], ?_, by simp, fun _ => ?_⟩
  · rw [laterDepth, isPast, sameDepth]
  · by_cases more : statements = []
    · rw [laterNone more, isPast]
      exact notColon
    · exact laterSome more

/-- Every derived phrase fits, when its functions are found where they are placed. -/
theorem derives_fits {first : Nat} {tokens : List Token} {phrase : Phrase}
    {defined : List Definition} (derived : Derives first tokens phrase defined)
    (holds : Int → Nat → Prop) (functions : List Definition)
    (located : Located functions first defined) : PhraseFits holds functions tokens phrase := by
  induction derived with
  | block first colon newline close tokens statements defined isColon isBreak isClose nonempty
      derived ih => exact block_fits isColon isBreak isClose nonempty (ih located)
  | chainEnd first =>
      intro cursor place past depth
      exact ⟨by simp [headsFit_nil], past⟩
  | otherwise first gap keyword tokens body defined breaks isElse derived ih =>
      exact otherwise_fits breaks isElse (ih located)
  | branch first gap keyword condition tokens later comparison body branches otherwise defined
      laterDefined breaks isElif compared derived continued ih laterIh =>
      obtain ⟨here, onward⟩ := located_append located
      exact elif_fits breaks isElif compared (ih here) (laterIh onward)
  | forRange first keyword counter inside range left start comma stop right tokens body defined
      isFor isCounter isIn isRange opens startBound isComma stopBound closes derived ih =>
      have isInline :=
        rangeHeader_inline isCounter isIn isRange opens startBound isComma stopBound closes
      exact loop_fits (by simp [StartsStatement, isFor])
        (inline_of_kind isFor (by decide) (by decide)) isInline rfl rfl (by simp) (ih located)
  | whileLoop first keyword condition tokens comparison body defined isWhile compared derived ih =>
      exact loop_fits (by simp [StartsStatement, isWhile])
        (inline_of_kind isWhile (by decide) (by decide)) (comparison_inline compared) rfl rfl
        (by simp) (ih located)
  | ifChain first keyword condition tokens later comparison body branches otherwise defined
      laterDefined isIf compared derived continued ih laterIh =>
      obtain ⟨here, onward⟩ := located_append located
      exact ifChain_fits isIf compared (ih here) (laterIh onward)
  | definition first keyword name left right inner resultTokens tokens parameters returns body
      defined isDef isName opens listed closes result derived ih =>
      obtain ⟨here, onward⟩ := located_append located
      have found := onward 0 (by simp)
      have isInline := definitionHeader_inline isName opens listed closes result
      have fits := definition_fits isDef isInline (by simpa using found) (ih here)
      simpa using fits
  | listEnd first gap breaks =>
      intro cursor place ready depth
      obtain ⟨noHeads, sameDepth, sameEnding, _⟩ := gap_run breaks (ready.imp_right And.left)
      exact ⟨by simp [HeadsFit, noHeads, throughoutAll_nil], sameDepth, fun _ => sameEnding, by simp⟩
  | simple first gap tokens later statement statements defined breaks derived ends continued ih =>
      exact simple_fits breaks derived ends (ih located)
  | compound first gap tokens later statement statements defined laterDefined breaks derived
      continued ih laterIh =>
      obtain ⟨here, onward⟩ := located_append located
      exact compound_fits breaks (compound_front derived) (ih here) (laterIh onward)

/-! ## Programs -/

/-- The first head of the tokens after the import clause is that of a statement of the
    body, before any block is closed. -/
theorem front_head {first : Nat} {tokens : List Token} {statements : List Statement}
    {defined : List Definition}
    (derived : Derives first tokens (.statements statements) defined) {cursor : Cursor}
    (plain : cursor.fresh = false ∧ cursor.closed = false ∧ cursor.ending ≠ .colon)
    (ends : LineEnds tokens) :
    ∀ head ∈ (heads cursor tokens).head?,
      StartsStatement head.2 ∧ head.1.depth = cursor.depth ∧ head.1.closed = false := by
  obtain ⟨gap, rest, rfl, breaks, starts⟩ := statements_front derived
  cases gap with
  | nil =>
      cases rest with
      | nil => simp [heads]
      | cons token rest =>
          have isBreak := ends token rfl
          simpa [StartsStatement, isBreak] using starts token rfl
  | cons lineBreak gap =>
      have isBreak := breaks lineBreak (by simp)
      have notInline : ¬ lineBreak.Inline := fun isInline => isInline.1 isBreak
      have step : cursor.step lineBreak = ⟨cursor.depth, cursor.ending, false, true⟩ := by
        simp [Cursor.step, isBreak, plain]
      obtain ⟨noHeads, same⟩ := heads_breaks
        (fun other member => breaks other (List.mem_cons_of_mem lineBreak member))
        (show (cursor.step lineBreak).fresh = true by rw [step])
      rw [List.cons_append, heads, if_neg (by simp [notInline]), heads_append, noHeads, same, step,
        List.nil_append]
      intro head isHead
      cases rest with
      | nil => simp [heads] at isHead
      | cons token rest =>
          have startsHere := starts token rfl
          rw [heads, if_pos ⟨rfl, startsHere.inline⟩] at isHead
          obtain rfl : (_, token) = head := by simpa using isHead
          exact ⟨startsHere, rfl, rfl⟩

/-- The heads of a program: the import clause at depth zero, and then the heads that
    tell where its statements stand. All blocks are closed in the end. -/
theorem program_heads {tokens : List Token} {program : Program}
    (derived : ProgramOf tokens program) :
    ∃ first others, heads .start tokens = (.start, first) :: others ∧
      (∀ head ∈ others.head?,
        StartsStatement head.2 ∧ head.1.depth = 0 ∧ head.1.closed = false) ∧
      (Cursor.start.run tokens).depth = 0 ∧ (Cursor.start.run tokens).ending ≠ .colon ∧
      ∀ holds : Int → Nat → Prop, (∀ head ∈ others, HeadFits holds head) ↔
        ∀ place statement, program.Occurs place statement →
          holds place.depth statement.line := by
  cases derived with
  | program gap clauseTokens tokens clause body functions breaks imported ends derived =>
      obtain ⟨isInline, last, isLast, notColon⟩ := import_plain imported
      obtain ⟨first, rest, rfl⟩ : ∃ first rest, clauseTokens = first :: rest := by
        cases imported with
        | whole => exact ⟨_, _, rfl⟩
        | part => exact ⟨_, _, rfl⟩
      obtain ⟨noHeads, same⟩ := heads_breaks breaks (show Cursor.start.fresh = true from rfl)
      obtain ⟨_, sameLast, oneHead, run⟩ :=
        heads_line isInline (show Cursor.start.fresh = true from rfl)
      obtain rfl := Option.some.inj (isLast.symm.trans sameLast)
      have located : Located functions 0 functions := by
        intro index _
        rw [Nat.zero_add]
      have fits (holds : Int → Nat → Prop) := derives_fits derived holds functions located
        ⟨0, last.kind, false, false⟩ (.top []) (Or.inr ⟨notColon, ends⟩) rfl
      obtain ⟨_, endDepth, endNone, endSome⟩ := fits fun _ _ => True
      refine ⟨first, heads ⟨0, last.kind, false, false⟩ tokens, ?_, ?_, ?_, ?_, ?_⟩
      · rw [heads_append, heads_append, noHeads, same, oneHead, run]
        rfl
      · exact front_head derived ⟨rfl, rfl, notColon⟩ ends
      · rw [Cursor.run_append, same, Cursor.run_append, run]
        exact endDepth
      · rw [Cursor.run_append, same, Cursor.run_append, run]
        by_cases empty : body = []
        · rw [show Cursor.start.depth = 0 from rfl, endNone empty]
          exact notColon
        · exact endSome empty
      · intro holds
        have occurs := @occurs_iff ⟨clause, body, functions⟩ (ByDepth holds)
        exact (fits holds).1.trans occurs.symm

end Offside
