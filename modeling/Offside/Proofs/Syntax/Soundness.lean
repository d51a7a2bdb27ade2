import Offside.Proofs.Syntax.Derivation
import Offside.Proofs.Syntax.Reading

/-!
# What is read has a derivation

Whenever a reader succeeds, the tokens between the state it started in and the
state it stopped in derive its result. Bounds on nesting play no part here: a
reader that runs out of its bound either fails or stops early, and stopping early
is a derivation of less.

A reader of one line leaves definitions and events alone, so its states differ in
the unread tokens only. A reader of anything that nests appends definitions.
-/

namespace Offside.Grammar

open Reader

variable {α : Type}

/-- A success of the reader is a stretch of tokens related to its result, and the
    rest of the state stays as it was. -/
def Reads (reader : Reader α) (relation : List Token → α → Prop) : Prop :=
  ∀ context state value after, reader context state = .ok value after →
    ∃ tokens, relation tokens value ∧ state = { after with rest := tokens ++ after.rest }

/-- A success of the reader is a stretch of tokens that derives a phrase, and the
    definitions of the stretch are appended to those met before. -/
def ReadsPhrase (reader : Reader α) (phrase : α → Phrase) : Prop :=
  ∀ context state value after, reader context state = .ok value after →
    ∃ tokens functions, Derives state.functions.length tokens (phrase value) functions ∧
      state.rest = tokens ++ after.rest ∧ after.functions = state.functions ++ functions

/-- The kinds that the reader expects for a literal are those that the grammar admits for one. -/
theorem mem_literals_iff (token : Token) : token.kind ∈ literals ↔ Literal token := Iff.rfl

/-- The kinds that the reader expects for an operand are those that the grammar admits for one. -/
theorem mem_operands_iff (token : Token) : token.kind ∈ operands ↔ Operand token := by
  simp [operands, Operand, Literal]

/-- The kinds that the reader expects for a bound of a range are those that the grammar admits for
    one. -/
theorem mem_bounds_iff (token : Token) : token.kind ∈ bounds ↔ Bound token := by
  simp [bounds, Bound]

/-- The kinds that the reader expects for a callee are those that the grammar admits for one. -/
theorem mem_callees_iff (token : Token) : token.kind ∈ callees ↔ Callee token := by
  simp [callees, Callee]

/-- The reader takes for an operator of an expression what the grammar admits as one. -/
theorem isMathOperator_iff (token : Token) :
    token.kind.isMathOperator = true ↔ Operator token := by
  unfold Operator
  cases token.kind <;> decide

/-- The reader takes for a comparator of a condition what the grammar admits as one. -/
theorem isComparator_iff (token : Token) : token.kind.isComparator = true ↔ Comparator token := by
  unfold Comparator
  cases token.kind <;> decide

/-- An expression that is read is derived: the operator, if there is one, is
    followed by a second operand. -/
theorem expression_reads : Reads Reader.expression ExpressionOf := by
  intro context state value after run
  simp only [Reader.expression, production_apply, bind_ok_iff, expectAny_ok_iff, accept?_ok_iff,
    mem_operands_iff] at run
  obtain ⟨left, middle, ⟨leftOperand, rfl⟩, taken, next, accepted, run⟩ := run
  rcases accepted with ⟨operator, rfl, isOperator, rfl⟩ | ⟨rfl, rfl, _⟩
  · simp only [bind_ok_iff, expectAny_ok_iff, mem_operands_iff, pure_apply] at run
    obtain ⟨right, last, ⟨rightOperand, rfl⟩, run⟩ := run
    cases run
    exact ⟨[left, operator, right],
      .operation left operator right leftOperand ((isMathOperator_iff operator).mp isOperator)
        rightOperand, rfl⟩
  · cases run
    exact ⟨[left], .operand left leftOperand, rfl⟩

/-- A condition that is read is derived, with a comparator and a second expression or without. -/
theorem comparison_reads : Reads Reader.comparison ComparisonOf := by
  intro context state value after run
  simp only [Reader.comparison, production_apply, bind_ok_iff, accept?_ok_iff] at run
  obtain ⟨left, middle, leftRun, taken, next, accepted, run⟩ := run
  obtain ⟨leftTokens, leftSide, rfl⟩ := expression_reads _ _ _ _ leftRun
  rcases accepted with ⟨comparator, rfl, isComparator, rfl⟩ | ⟨rfl, rfl, _⟩
  · simp only [bind_ok_iff] at run
    obtain ⟨right, last, rightRun, run⟩ := run
    obtain ⟨rightTokens, rightSide, rfl⟩ := expression_reads _ _ _ _ rightRun
    cases run
    refine ⟨leftTokens ++ comparator :: rightTokens, ?_, by simp⟩
    exact .compared leftTokens rightTokens comparator left right leftSide
      ((isComparator_iff comparator).mp isComparator) rightSide
  · cases run
    exact ⟨leftTokens, .expression leftTokens left leftSide, rfl⟩

/-- Items that are read one after another with commas between them are listed so
    in the tokens. There is at least one. -/
theorem separatedWithin_reads {item : Reader α} {relation : List Token → α → Prop}
    (reads : Reads item relation) (bound : Nat) :
    Reads (separatedWithin item bound) fun tokens items =>
      ∃ parts : List (List Token × α), Listed (parts.map Prod.fst) tokens ∧ parts ≠ [] ∧
        (∀ part ∈ parts, relation part.1 part.2) ∧ items = parts.map Prod.snd := by
  induction bound with
  | zero =>
      intro context state items after run
      simp only [separatedWithin, bind_ok_iff] at run
      obtain ⟨first, middle, firstRun, run⟩ := run
      obtain ⟨tokens, related, rfl⟩ := reads _ _ _ _ firstRun
      cases run
      exact ⟨tokens, ⟨[(tokens, first)], .one tokens, by simp, by simpa using related, rfl⟩, rfl⟩
  | succ bound ih =>
      intro context state items after run
      simp only [separatedWithin, bind_ok_iff, accept?_ok_iff] at run
      obtain ⟨first, middle, firstRun, taken, next, accepted, run⟩ := run
      obtain ⟨tokens, related, rfl⟩ := reads _ _ _ _ firstRun
      rcases accepted with ⟨comma, rfl, isComma, rfl⟩ | ⟨rfl, rfl, _⟩
      · simp only [bind_ok_iff] at run
        obtain ⟨later, last, laterRun, run⟩ := run
        obtain ⟨laterTokens, ⟨parts, listed, nonempty, derived, rfl⟩, rfl⟩ :=
          ih _ _ _ _ laterRun
        cases run
        obtain ⟨second, parts, rfl⟩ := List.exists_cons_of_ne_nil nonempty
        refine ⟨tokens ++ comma :: laterTokens, ⟨(tokens, first) :: second :: parts, ?_, by simp,
          ?_, by simp⟩, by simp⟩
        · exact .more tokens second.1 (parts.map Prod.fst) comma laterTokens
            (by simpa using isComma) listed
        · intro part member
          rcases List.mem_cons.mp member with rfl | member
          · exact related
          · exact derived part member
      · cases run
        exact ⟨tokens, ⟨[(tokens, first)], .one tokens, by simp, by simpa using related, rfl⟩, rfl⟩

/-- Items between parentheses are listed between them if each is related to its stretch of tokens.
    There may be none. -/
theorem parenthesized_reads {item : Reader α} {relation : List Token → α → Prop}
    (reads : Reads item relation) :
    Reads (parenthesized item) fun tokens items =>
      ∃ (left right : Token) (inner : List Token) (parts : List (List Token × α)),
        tokens = left :: (inner ++ [right]) ∧ left.kind = .leftParen ∧ right.kind = .rightParen ∧
        Listed (parts.map Prod.fst) inner ∧ (∀ part ∈ parts, relation part.1 part.2) ∧
        items = parts.map Prod.snd := by
  intro context state items after run
  simp only [parenthesized, bind_ok_iff, expect_ok_iff, currentKind_apply] at run
  obtain ⟨left, middle, ⟨opens, rfl⟩, kind, _, same, run⟩ := run
  cases same
  by_cases empty : middle.rest.head?.map Token.kind = some .rightParen
  · rw [if_pos empty] at run
    simp only [bind_ok_iff, expect_ok_iff, pure_apply] at run
    obtain ⟨_, _, same, right, last, ⟨closes, rfl⟩, run⟩ := run
    cases same
    cases run
    exact ⟨[left, right], ⟨left, right, [], [], rfl, opens, closes, .none, by simp, rfl⟩, rfl⟩
  · rw [if_neg empty] at run
    simp only [separated, bind_ok_iff, expect_ok_iff, unread_apply] at run
    obtain ⟨_, last, ⟨_, _, same, listRun⟩, right, _, ⟨closes, rfl⟩, run⟩ := run
    cases same
    cases run
    obtain ⟨inner, ⟨parts, listed, _, derived, rfl⟩, rfl⟩ :=
      separatedWithin_reads reads _ _ _ _ _ listRun
    exact ⟨left :: (inner ++ [right]), ⟨left, right, inner, parts, rfl, opens, closes, listed,
      derived, rfl⟩, by simp⟩

/-- A call that is read is derived, however deep calls may nest in it. -/
theorem callWithin_reads (bound : Nat) :
    Reads (callWithin bound) fun tokens call => ArgumentOf tokens (.call call.1 call.2) := by
  induction bound with
  | zero =>
      intro context state call after run
      cases run
  | succ bound ih =>
      have argumentReads : Reads (argumentWithin bound) ArgumentOf := by
        intro context state value after run
        simp only [argumentWithin, bind_of_ok atCall_apply] at run
        by_cases shaped : startsCall state.rest = true
        · rw [if_pos shaped] at run
          simp only [bind_ok_iff] at run
          obtain ⟨call, middle, callRun, run⟩ := run
          cases run
          exact ih _ _ _ _ callRun
        · rw [if_neg shaped] at run
          simp only [bind_ok_iff, expectAny_ok_iff, mem_operands_iff] at run
          obtain ⟨token, middle, ⟨isOperand, rfl⟩, run⟩ := run
          cases run
          exact ⟨[token], .operand token isOperand, rfl⟩
      intro context state call after run
      simp only [callWithin_succ, production_apply, bind_ok_iff, expectAny_ok_iff,
        mem_callees_iff] at run
      obtain ⟨callee, middle, ⟨isCallee, rfl⟩, arguments, last, listRun, run⟩ := run
      cases run
      obtain ⟨_, ⟨left, right, inner, parts, rfl, opens, closes, listed, derived, rfl⟩, rfl⟩ :=
        parenthesized_reads argumentReads _ _ _ _ listRun
      exact ⟨callee :: left :: (inner ++ [right]),
        .call callee left right parts inner isCallee opens closes listed derived, rfl⟩

/-- A call that is read is derived, by tokens from its callee to its closing parenthesis. -/
theorem call_reads :
    Reads Reader.call fun tokens call => ArgumentOf tokens (.call call.1 call.2) := by
  intro context state call after run
  simp only [Reader.call, bind_ok_iff, unread_apply] at run
  obtain ⟨_, _, same, run⟩ := run
  cases same
  exact callWithin_reads _ _ _ _ _ run

/-- A list of items that define nothing defines nothing, by induction on the bound for the items. -/
theorem definesNothing_separatedWithin {item : Reader α} (nothing : DefinesNothing item)
    (bound : Nat) : DefinesNothing (separatedWithin item bound) := by
  induction bound with
  | zero => exact definesNothing_bind nothing fun value => definesNothing_pure [value]
  | succ bound ih =>
      apply definesNothing_bind nothing
      intro first
      apply definesNothing_bind (definesNothing_accept? _)
      intro taken
      cases taken with
      | none => exact definesNothing_pure [first]
      | some comma => exact definesNothing_bind ih fun later => definesNothing_pure (first :: later)

/-- Items in parentheses define nothing together if each of them defines nothing. -/
theorem definesNothing_parenthesized {item : Reader α} (nothing : DefinesNothing item) :
    DefinesNothing (parenthesized item) := by
  apply definesNothing_bind (definesNothing_expectAny _)
  intro left
  apply definesNothing_bind definesNothing_currentKind
  intro kind
  have closing (items : List α) : DefinesNothing (do
      let _ ← expect .rightParen
      return items) :=
    definesNothing_bind (definesNothing_expectAny _) fun right => definesNothing_pure items
  dsimp only
  split
  · exact definesNothing_bind (definesNothing_pure []) closing
  · apply definesNothing_bind _ closing
    exact definesNothing_bind definesNothing_unread
      fun unread => definesNothing_separatedWithin nothing unread.length

/-- No call defines a function, not even one that fails after reading some of its
    arguments. -/
theorem definesNothing_callWithin (bound : Nat) : DefinesNothing (callWithin bound) := by
  induction bound with
  | zero => exact definesNothing_production (definesNothing_unexpected callees)
  | succ bound ih =>
      rw [callWithin_succ]
      apply definesNothing_production
      apply definesNothing_bind (definesNothing_expectAny _)
      intro callee
      apply definesNothing_bind
      · apply definesNothing_parenthesized
        apply definesNothing_bind (fun context state => by rw [atCall_apply])
        intro shaped
        cases shaped with
        | true => exact definesNothing_bind ih fun call => definesNothing_pure _
        | false =>
            exact definesNothing_bind (definesNothing_expectAny _) fun token =>
              definesNothing_pure _
      · intro arguments
        exact definesNothing_pure _

/-- What has not the shape of a call is read again as a literal, from where the
    attempt started. -/
theorem literalAfter_false (checkpoint : List Token) (failure : Failure) (context : Context)
    (state : State) :
    ∃ events, literalAfter false checkpoint failure context state =
      (Value.terminal <$> expectAny literals) context ⟨checkpoint, state.functions, events⟩ :=
  ⟨_, rfl⟩

/-- The attempt to read an initial value as a call. -/
def calledValue : Reader Value := do
  let called ← Reader.call
  return Value.call called.1 called.2

/-- An initial value is a call, or else what is read after that attempt. -/
theorem initialValue_eq :
    initialValue = atCall >>= fun shaped => unread >>= fun checkpoint =>
      tryCatch calledValue (literalAfter shaped checkpoint) :=
  rfl

/-- The initial value of a declaration is derived. When the attempt to read a call
    fails, reading goes back to where it started, with no definition met since.

    The reports of that detour are the one change to the state apart from the
    tokens. -/
theorem initialValue_reads (context : Context) (state : State) (value : Value) (after : State)
    (run : initialValue context state = .ok value after) :
    ∃ tokens, InitialOf tokens value ∧ state.rest = tokens ++ after.rest ∧
      after.functions = state.functions := by
  simp only [initialValue_eq, bind_ok_iff, atCall_apply, unread_apply, tryCatch_apply] at run
  obtain ⟨_, _, same, _, _, same', run⟩ := run
  cases same
  cases same'
  have nothing : DefinesNothing calledValue :=
    definesNothing_bind
      (definesNothing_bind definesNothing_unread fun unread => definesNothing_callWithin unread.length)
      fun call => definesNothing_pure _
  have kept := nothing context state
  cases attempt : calledValue context state with
  | ok called middle =>
      rw [attempt] at run
      cases run
      rw [calledValue, bind_ok_iff] at attempt
      obtain ⟨call, middle, callRun, same⟩ := attempt
      cases same
      obtain ⟨tokens, derived, rfl⟩ := call_reads _ _ _ _ callRun
      exact ⟨tokens, .call tokens call.1 call.2 derived, rfl, rfl⟩
  | error failure middle =>
      rw [attempt] at run kept
      cases shaped : startsCall state.rest with
      | true =>
          rw [shaped] at run
          cases run
      | false =>
          rw [shaped] at run
          obtain ⟨events, again⟩ := literalAfter_false state.rest failure context middle
          simp only [again, map_eq_pure_bind, bind_ok_iff, expectAny_ok_iff] at run
          obtain ⟨token, last, ⟨isLiteral, same⟩, run⟩ := run
          cases run
          obtain ⟨unread, functions, _⟩ := State.mk.inj same
          exact ⟨[token], .literal token ((mem_literals_iff token).mp isLiteral), unread,
            functions.symm.trans kept⟩

/-- A success of the reader is a simple statement, which defines no function. -/
def ReadsSimple (reader : Reader Statement) : Prop :=
  ∀ context state value after, reader context state = .ok value after →
    ∃ tokens, SimpleOf tokens value ∧ state.rest = tokens ++ after.rest ∧
      after.functions = state.functions

/-- A declaration that is read is derived. If a call was tried in vain, the literal is derived from
    where the attempt has started. -/
theorem declaration_reads : ReadsSimple Reader.declaration := by
  intro context state value after run
  simp only [Reader.declaration, production_apply, bind_ok_iff, expect_ok_iff] at run
  obtain ⟨name, _, ⟨isName, rfl⟩, colon, _, ⟨isColon, rfl⟩, type, _, ⟨isType, rfl⟩, assign, _,
    ⟨isAssign, rfl⟩, initial, _, initialRun, run⟩ := run
  cases run
  obtain ⟨tokens, derived, unread, functions⟩ := initialValue_reads _ _ _ _ initialRun
  refine ⟨name :: colon :: type :: assign :: tokens, ?_, by simp [unread], functions⟩
  exact .declaration name colon type assign tokens initial isName isColon isType isAssign derived

/-- An assignment that is read is derived from a name, the sign and an expression. -/
theorem manipulation_reads : ReadsSimple Reader.manipulation := by
  intro context state value after run
  simp only [Reader.manipulation, production_apply, bind_ok_iff, expect_ok_iff] at run
  obtain ⟨target, _, ⟨isTarget, rfl⟩, assign, _, ⟨isAssign, rfl⟩, assigned, _, assignedRun,
    run⟩ := run
  cases run
  obtain ⟨tokens, derived, rfl⟩ := expression_reads _ _ _ _ assignedRun
  exact ⟨target :: assign :: tokens,
    .manipulation target assign tokens assigned isTarget isAssign derived, rfl, rfl⟩

/-- A call that is read as a statement is derived as one. -/
theorem callStatement_reads : ReadsSimple callStatement := by
  intro context state value after run
  simp only [callStatement, bind_ok_iff] at run
  obtain ⟨call, _, callRun, run⟩ := run
  cases run
  obtain ⟨tokens, derived, rfl⟩ := call_reads _ _ _ _ callRun
  exact ⟨tokens, .call tokens call.1 call.2 derived, rfl, rfl⟩

/-- A return statement that is read is derived from its keyword and an operand. -/
theorem returnValue_reads : ReadsSimple Reader.returnValue := by
  intro context state value after run
  simp only [Reader.returnValue, production_apply, bind_ok_iff, expect_ok_iff, expectAny_ok_iff,
    mem_operands_iff] at run
  obtain ⟨keyword, _, ⟨isReturn, rfl⟩, operand, _, ⟨isOperand, rfl⟩, run⟩ := run
  cases run
  exact ⟨[keyword, operand], .returnValue keyword operand isReturn isOperand, rfl, rfl⟩

/-- A statement that starts with a name is a declaration, an assignment or a
    call. -/
theorem namedStatement_reads : ReadsSimple namedStatement := by
  intro context state value after run
  simp only [namedStatement, bind_of_ok nextKind_apply] at run
  generalize state.rest[1]?.map Token.kind = kind at run
  split at run
  · exact declaration_reads _ _ _ _ run
  · exact manipulation_reads _ _ _ _ run
  · exact callStatement_reads _ _ _ _ run
  · simp [bind_ok_iff] at run

section Compound

variable {block : Reader (Block Statement)} (blockReads : ReadsPhrase block .block)

include blockReads

/-- A loop over a range that is read is derived if its block is, and it defines what its block
    does. -/
theorem forRange_reads : ReadsPhrase (Reader.forRange block) .compound := by
  intro context state value after run
  simp only [Reader.forRange, production_apply, bind_ok_iff, expect_ok_iff, expectAny_ok_iff,
    mem_bounds_iff] at run
  obtain ⟨keyword, _, ⟨isFor, rfl⟩, counter, _, ⟨isCounter, rfl⟩, inside, _, ⟨isIn, rfl⟩,
    range, _, ⟨isRange, rfl⟩, left, _, ⟨opens, rfl⟩, start, _, ⟨startBound, rfl⟩, comma, _,
    ⟨isComma, rfl⟩, stop, _, ⟨stopBound, rfl⟩, right, _, ⟨closes, rfl⟩, body, _, bodyRun,
    run⟩ := run
  cases run
  obtain ⟨tokens, functions, derived, unread, appended⟩ := blockReads _ _ _ _ bodyRun
  refine ⟨keyword :: counter :: inside :: range :: left :: start :: comma :: stop :: right ::
    tokens, functions, ?_, by simp [unread], appended⟩
  exact .forRange _ keyword counter inside range left start comma stop right tokens body functions
    isFor isCounter isIn isRange opens startBound isComma stopBound closes derived

/-- A loop with a condition that is read is derived if its block is, and it defines what its block
    does. -/
theorem whileLoop_reads : ReadsPhrase (Reader.whileLoop block) .compound := by
  intro context state value after run
  simp only [Reader.whileLoop, production_apply, bind_ok_iff, expect_ok_iff] at run
  obtain ⟨keyword, _, ⟨isWhile, rfl⟩, comparison, _, comparisonRun, body, _, bodyRun, run⟩ := run
  cases run
  obtain ⟨condition, compared, rfl⟩ := comparison_reads _ _ _ _ comparisonRun
  obtain ⟨tokens, functions, derived, unread, appended⟩ := blockReads _ _ _ _ bodyRun
  refine ⟨keyword :: (condition ++ tokens), functions, ?_, by simp [unread], appended⟩
  exact .whileLoop _ keyword condition tokens comparison body functions isWhile compared derived

/-- The keyword, condition and block of a branch, each with its own stretch. -/
theorem branch_reads (word : Kind) (context : Context) (state : State)
    (branch : Branch Statement) (after : State)
    (run : Reader.branch block word context state = .ok branch after) :
    ∃ condition tokens functions, branch.keyword.kind = word ∧
      ComparisonOf condition branch.condition ∧
      Derives state.functions.length tokens (.block branch.body) functions ∧
      state.rest = branch.keyword :: (condition ++ (tokens ++ after.rest)) ∧
      after.functions = state.functions ++ functions := by
  simp only [Reader.branch, bind_ok_iff, expect_ok_iff] at run
  obtain ⟨keyword, _, ⟨isWord, rfl⟩, comparison, _, comparisonRun, body, _, bodyRun, run⟩ := run
  cases run
  obtain ⟨condition, compared, rfl⟩ := comparison_reads _ _ _ _ comparisonRun
  obtain ⟨tokens, functions, derived, unread, appended⟩ := blockReads _ _ _ _ bodyRun
  exact ⟨condition, tokens, functions, isWord, compared, derived, by simp [unread], appended⟩

omit blockReads in
/-- What skipping line breaks takes away are line breaks, so it is a gap of the grammar. -/
theorem breaks_takeWhile (tokens : List Token) :
    Breaks (tokens.takeWhile (fun token => token.kind == .newline)) := by
  intro token member
  have all := List.all_takeWhile (p := fun token : Token => token.kind == .newline) (l := tokens)
  simpa using List.all_eq_true.mp all token member

/-- What continues a chain is derived. Line breaks before `elif` and `else` belong
    to it, and those that lead to neither are given back. -/
theorem continuation_reads (bound : Nat) :
    ReadsPhrase (Reader.continuation block bound) fun chain => .continuation chain.1 chain.2 := by
  induction bound with
  | zero =>
      intro context state chain after run
      simp only [Reader.continuation, bind_of_ok unread_apply] at run
      obtain ⟨event, rewound⟩ := rewind_apply state.rest context state
      rw [bind_of_ok rewound] at run
      cases run
      exact ⟨[], [], .chainEnd _, rfl, by simp⟩
  | succ bound ih =>
      intro context state chain after run
      simp only [Reader.continuation, bind_of_ok unread_apply, bind_of_ok skipNewlines_apply,
        bind_of_ok currentKind_apply] at run
      have breaks := breaks_takeWhile state.rest
      have whole := List.takeWhile_append_dropWhile
        (p := fun token : Token => token.kind == .newline) (l := state.rest)
      generalize state.rest.takeWhile (fun token => token.kind == .newline) = gap at breaks whole
      generalize state.rest.dropWhile (fun token => token.kind == .newline) = unread at run whole
      generalize found : Option.map Token.kind unread.head? = kind at run
      split at run
      · simp only [bind_ok_iff] at run
        obtain ⟨next, _, nextRun, ⟨branches, otherwise⟩, _, laterRun, run⟩ := run
        cases run
        obtain ⟨condition, tokens, functions, isElif, compared, derived, read, appended⟩ :=
          branch_reads blockReads _ _ _ _ _ nextRun
        obtain ⟨later, laterFunctions, continued, laterRead, laterAppended⟩ := ih _ _ _ _ laterRun
        simp only at read appended
        rw [appended, List.length_append] at continued
        refine ⟨gap ++ next.keyword :: (condition ++ (tokens ++ later)),
          functions ++ laterFunctions, ?_, ?_, by simp [laterAppended, appended]⟩
        · exact .branch _ gap next.keyword condition tokens later next.condition next.body branches
            otherwise functions laterFunctions breaks isElif compared derived continued
        · rw [← whole, read, laterRead]
          simp
      · obtain ⟨keyword, rest, rfl⟩ : ∃ keyword rest, unread = keyword :: rest := by
          cases unread with
          | nil => cases found
          | cons keyword rest => exact ⟨keyword, rest, rfl⟩
        simp only [bind_of_ok advance_apply, bind_ok_iff] at run
        obtain ⟨body, _, bodyRun, run⟩ := run
        cases run
        obtain ⟨tokens, functions, derived, read, appended⟩ := blockReads _ _ _ _ bodyRun
        simp only [List.tail_cons] at read
        refine ⟨gap ++ keyword :: tokens, functions, ?_, ?_, appended⟩
        · exact .otherwise _ gap keyword tokens body functions breaks (by simpa using found) derived
        · rw [← whole, read]
          simp
      · obtain ⟨event, rewound⟩ := rewind_apply state.rest context { state with rest := unread }
        rw [bind_of_ok rewound] at run
        cases run
        exact ⟨[], [], .chainEnd _, rfl, by simp⟩

/-- A chain that is read is derived if the blocks in it are, and it defines what they define, in
    order. -/
theorem ifChain_reads : ReadsPhrase (Reader.ifChain block) .compound := by
  intro context state value after run
  simp only [Reader.ifChain, production_apply, bind_ok_iff, unread_apply] at run
  obtain ⟨leading, middle, leadingRun, _, _, same, ⟨branches, otherwise⟩, _, laterRun, run⟩ := run
  cases same
  cases run
  obtain ⟨condition, tokens, functions, isIf, compared, derived, read, appended⟩ :=
    branch_reads blockReads _ _ _ _ _ leadingRun
  obtain ⟨later, laterFunctions, continued, laterRead, laterAppended⟩ :=
    continuation_reads blockReads _ _ _ _ _ laterRun
  rw [appended, List.length_append] at continued
  refine ⟨leading.keyword :: (condition ++ (tokens ++ later)), functions ++ laterFunctions, ?_, ?_,
    by simp [laterAppended, appended]⟩
  · exact .ifChain _ leading.keyword condition tokens later leading.condition leading.body branches
      otherwise functions laterFunctions isIf compared derived continued
  · rw [read, laterRead]
    simp

omit blockReads in
/-- A parameter that is read is derived from a name, a colon and a type. -/
theorem parameter_reads : Reads Reader.parameter ParameterOf := by
  intro context state value after run
  simp only [Reader.parameter, bind_ok_iff, expect_ok_iff] at run
  obtain ⟨name, _, ⟨isName, rfl⟩, colon, _, ⟨isColon, rfl⟩, type, _, ⟨isType, rfl⟩, run⟩ := run
  cases run
  exact ⟨[name, colon, type], .typed name colon type isName isColon isType, rfl⟩

omit blockReads in
/-- A result type that is read is derived. Nothing is read where there is no arrow. -/
theorem resultType_reads : Reads Reader.resultType ResultOf := by
  intro context state value after run
  simp only [Reader.resultType, bind_ok_iff, accept?_ok_iff] at run
  obtain ⟨taken, middle, accepted, run⟩ := run
  rcases accepted with ⟨arrow, rfl, isArrow, rfl⟩ | ⟨rfl, rfl, _⟩
  · simp only [bind_ok_iff, expectAny_ok_iff, List.mem_cons, List.not_mem_nil, or_false] at run
    obtain ⟨type, last, ⟨isType, rfl⟩, run⟩ := run
    cases run
    have isArrow : arrow.kind = .arrow := by simpa using isArrow
    rcases isType with isName | isNull
    · exact ⟨[arrow, type],
        by simpa [Token.isIdentifier, isName] using .named arrow type isArrow isName, rfl⟩
    · exact ⟨[arrow, type], by simpa [Token.isIdentifier, isNull] using .null arrow type isArrow isNull,
        rfl⟩
  · cases run
    exact ⟨[], .missing, rfl⟩

/-- A definition is appended when its body has been read, so its index counts the
    definitions inside the body. -/
theorem definition_reads : ReadsPhrase (Reader.definition block) .compound := by
  intro context state value after run
  simp only [Reader.definition, production_apply, bind_ok_iff, expect_ok_iff] at run
  obtain ⟨keyword, _, ⟨isDef, rfl⟩, name, _, ⟨isName, rfl⟩, parameters, _, parametersRun,
    returns, _, resultRun, body, last, bodyRun, run⟩ := run
  obtain ⟨_, ⟨left, right, inner, parts, rfl, opens, closes, listed, derivedParts, rfl⟩, rfl⟩ :=
    parenthesized_reads parameter_reads _ _ _ _ parametersRun
  obtain ⟨resultTokens, result, rfl⟩ := resultType_reads _ _ _ _ resultRun
  obtain ⟨tokens, functions, derived, read, appended⟩ := blockReads _ _ _ _ bodyRun
  have hoisted : hoist ⟨keyword, name, parts.map Prod.snd, returns, body⟩
      { context with trail := context.trail ++ ["function"] } last = .ok value after := run
  cases hoisted
  simp only at read appended derived ⊢
  refine ⟨keyword :: name :: left :: (inner ++ right :: (resultTokens ++ tokens)),
    functions ++ [⟨keyword, name, parts.map Prod.snd, returns, body⟩], ?_, by simp [read],
    by simp [appended]⟩
  rw [appended, List.length_append]
  exact .definition _ keyword name left right inner resultTokens tokens (parts.map Prod.snd)
    returns body functions isDef isName opens ⟨parts, listed, derivedParts, rfl⟩ closes result derived

/-- A statement that is read is a simple one, or derived with its blocks. -/
theorem statement_reads (context : Context) (state : State) (value : Statement) (after : State)
    (run : Reader.statement block context state = .ok value after) :
    (∃ tokens, SimpleOf tokens value ∧ state.rest = tokens ++ after.rest ∧
      after.functions = state.functions) ∨
    ∃ tokens functions, Derives state.functions.length tokens (.compound value) functions ∧
      state.rest = tokens ++ after.rest ∧ after.functions = state.functions ++ functions := by
  simp only [Reader.statement, production_apply, bind_of_ok currentKind_apply] at run
  generalize Option.map Token.kind state.rest.head? = kind at run
  split at run
  · exact .inr (forRange_reads blockReads _ _ _ _ run)
  · exact .inr (whileLoop_reads blockReads _ _ _ _ run)
  · exact .inr (ifChain_reads blockReads _ _ _ _ run)
  · exact .inr (definition_reads blockReads _ _ _ _ run)
  · exact .inl (returnValue_reads _ _ _ _ run)
  · exact .inl (callStatement_reads _ _ _ _ run)
  · exact .inl (namedStatement_reads _ _ _ _ run)
  · cases run
  · cases run
  · cases run

omit blockReads in
/-- A statement on one line has no block at its end, so the end of its line has to follow. -/
theorem endsWithBlock_of_simple {tokens : List Token} {statement : Statement}
    (derived : SimpleOf tokens statement) : statement.endsWithBlock = false := by
  cases derived <;> rfl

omit blockReads in
/-- A derived statement of any other form has a block at its end, so nothing has to follow it. -/
theorem endsWithBlock_of_compound {first : Nat} {tokens : List Token} {statement : Statement}
    {functions : List Definition}
    (derived : Derives first tokens (.compound statement) functions) :
    statement.endsWithBlock = true := by
  cases derived <;> rfl

/-- After a simple statement that is read together with its end, a line break, the
    end of the block or the end of the input comes next. -/
theorem terminatedStatement_reads (context : Context) (state : State) (value : Statement)
    (after : State) (run : Reader.terminatedStatement block context state = .ok value after) :
    (∃ tokens, SimpleOf tokens value ∧ state.rest = tokens ++ after.rest ∧
      after.functions = state.functions ∧
      ∀ token ∈ after.rest.head?, token.kind = .newline ∨ token.kind = .closeBlock) ∨
    ∃ tokens functions, Derives state.functions.length tokens (.compound value) functions ∧
      state.rest = tokens ++ after.rest ∧ after.functions = state.functions ++ functions := by
  simp only [Reader.terminatedStatement, bind_ok_iff] at run
  obtain ⟨statement, middle, statementRun, run⟩ := run
  rcases statement_reads blockReads _ _ _ _ statementRun with
    ⟨tokens, derived, read, functions⟩ | ⟨tokens, functions, derived, read, appended⟩
  · rw [endsWithBlock_of_simple derived] at run
    have ended : (lineEnd >>= fun _ => pure statement) context middle = .ok value after := run
    obtain ⟨_, last, ended, same⟩ := bind_ok_iff.mp ended
    obtain ⟨rfl, ending⟩ := lineEnd_ok_iff.mp ended
    cases same
    exact .inl ⟨tokens, derived, read, functions, ending⟩
  · rw [endsWithBlock_of_compound derived] at run
    cases run
    exact .inr ⟨tokens, functions, derived, read, appended⟩

omit blockReads in
/-- A line break or a block end before a list of statements is a line break of
    that list, or what follows the list if it is empty. -/
theorem lineEnds_of_followed {first : Nat} {tokens rest : List Token}
    {statements : List Statement} {functions : List Definition}
    (derived : Derives first tokens (.statements statements) functions)
    (ending : ∀ token ∈ (tokens ++ rest).head?, token.kind = .newline ∨ token.kind = .closeBlock) :
    LineEnds tokens := by
  obtain ⟨gap, body, rfl, breaks, starts⟩ := statements_front derived
  intro token member
  cases gap with
  | nil =>
      have startsHere := starts token (by simpa using member)
      have endsHere := ending token (by simpa using Or.inl member)
      rcases endsHere with isBreak | isClose
      · exact isBreak
      · simp [StartsStatement, isClose] at startsHere
  | cons newline gap =>
      obtain rfl : newline = token := by simpa using member
      exact breaks newline (by simp)

/-- Statements that are read one after another derive their list. The induction is on the bound, and
    running out of it ends the list early. -/
theorem statementsWithin_reads (bound : Nat) :
    ReadsPhrase (Reader.statementsWithin block bound) .statements := by
  induction bound with
  | zero =>
      intro context state statements after run
      cases run
      exact ⟨[], [], .listEnd _ [] (by simp [Breaks]), rfl, by simp⟩
  | succ bound ih =>
      intro context state statements after run
      simp only [Reader.statementsWithin, bind_of_ok skipNewlines_apply,
        bind_of_ok currentKind_apply] at run
      have breaks := breaks_takeWhile state.rest
      have whole := List.takeWhile_append_dropWhile
        (p := fun token : Token => token.kind == .newline) (l := state.rest)
      generalize state.rest.takeWhile (fun token => token.kind == .newline) = gap at breaks whole
      generalize state.rest.dropWhile (fun token => token.kind == .newline) = unread at run whole
      generalize Option.map Token.kind unread.head? = kind at run
      have ended : ∃ tokens functions,
          Derives state.functions.length tokens (.statements []) functions ∧
          state.rest = tokens ++ unread ∧ state.functions = state.functions ++ functions :=
        ⟨gap, [], .listEnd _ gap breaks, whole.symm, by simp⟩
      split at run
      · cases run
        exact ended
      · cases run
        exact ended
      · simp only [bind_ok_iff] at run
        obtain ⟨statement, middle, statementRun, later, last, laterRun, run⟩ := run
        cases run
        obtain ⟨laterTokens, laterFunctions, continued, laterRead, laterAppended⟩ :=
          ih _ _ _ _ laterRun
        rcases terminatedStatement_reads blockReads _ _ _ _ statementRun with
          ⟨tokens, derived, read, kept, ending⟩ | ⟨tokens, functions, derived, read, appended⟩
        · rw [laterRead] at ending
          simp only at read kept
          rw [kept] at continued
          refine ⟨gap ++ (tokens ++ laterTokens), laterFunctions, ?_, ?_, by rw [laterAppended, kept]⟩
          · exact .simple _ gap tokens laterTokens statement later laterFunctions breaks derived
              (lineEnds_of_followed continued ending) continued
          · rw [← whole, read, laterRead]
            simp
        · simp only at read appended
          rw [appended, List.length_append] at continued
          refine ⟨gap ++ (tokens ++ laterTokens), functions ++ laterFunctions, ?_, ?_,
            by simp [laterAppended, appended]⟩
          · exact .compound _ gap tokens laterTokens statement later functions laterFunctions breaks
              derived continued
          · rw [← whole, read, laterRead]
            simp

/-- Statements that are read with the number of unread tokens for a bound derive their list, as they
    do for every bound. -/
theorem statements_reads : ReadsPhrase (Reader.statements block) .statements := by
  intro context state statements after run
  simp only [Reader.statements, bind_of_ok unread_apply] at run
  exact statementsWithin_reads blockReads _ _ _ _ _ run

end Compound

/-- A block that is read is derived, however deep blocks may nest in it. It is not
    empty, and its end is the next block end after its statements. -/
theorem blockWithin_reads (bound : Nat) : ReadsPhrase (blockWithin bound) .block := by
  induction bound with
  | zero =>
      intro context state block after run
      cases run
  | succ bound ih =>
      intro context state block after run
      simp only [blockWithin, production_apply, bind_of_ok currentLine_apply, bind_ok_iff,
        expect_ok_iff] at run
      obtain ⟨colon, _, ⟨isColon, rfl⟩, newline, middle, ⟨isBreak, rfl⟩, statements, last,
        statementsRun, kind, _, found, run⟩ := run
      cases found
      obtain ⟨tokens, functions, derived, read, appended⟩ :=
        statements_reads ih _ _ _ _ statementsRun
      generalize found : Option.map Token.kind last.rest.head? = kind at run
      split at run
      · cases statements with
        | nil => cases run
        | cons statement later =>
            cases run
            obtain ⟨close, rest, unread⟩ : ∃ close rest, last.rest = close :: rest := by
              cases unread : last.rest with
              | nil => simp [unread] at found
              | cons close rest => exact ⟨close, rest, rfl⟩
            refine ⟨colon :: newline :: (tokens ++ [close]), functions, ?_, ?_, appended⟩
            · exact .block _ colon newline close tokens (statement :: later) functions isColon isBreak
                (by simpa [unread] using found) (by simp) derived
            · simp [read, unread]
      · cases run

/-- The check at the end of an import clause lets through the runtime only. -/
theorem runtime_checked {context : Context} {state after : State} {clause result : ImportClause}
    (run : (if clause.module.lexeme ≠ runtimeModule then do
        failOn clause.module.line SyntaxFault.missingImport
        pure clause
      else pure clause : Reader ImportClause) context state = .ok result after) :
    clause.module.lexeme = "GoType" ∧ result = clause ∧ after = state := by
  by_cases isRuntime : clause.module.lexeme = runtimeModule
  · simp only [isRuntime, ne_eq, not_true_eq_false, if_false, pure_apply] at run
    cases run
    exact ⟨isRuntime, rfl, rfl⟩
  · rw [if_pos isRuntime] at run
    cases run

/-- An import clause that is read names the runtime, and its line is that of its
    first word. -/
theorem importClause_reads : Reads Reader.importClause ImportOf := by
  intro context state clause after run
  simp only [Reader.importClause, production_apply, bind_of_ok currentLine_apply,
    bind_of_ok currentKind_apply] at run
  obtain ⟨rest, functions, events⟩ := state
  cases rest with
  | nil => cases run
  | cons keyword rest =>
      simp only [List.head?_cons, Option.map_some, Option.getD_some] at run
      generalize isWord : some keyword.kind = kind at run
      split at run
      · simp only [bind_of_ok advance_apply, List.tail_cons, bind_ok_iff, expect_ok_iff,
          pure_apply] at run
        obtain ⟨module, last, ⟨isName, same⟩, _, _, clauseIs, run⟩ := run
        cases clauseIs
        cases same
        obtain ⟨isRuntime, rfl, rfl⟩ := runtime_checked run
        exact ⟨[keyword, module], .whole keyword module (by simpa using isWord) isName isRuntime, rfl⟩
      · simp only [bind_of_ok advance_apply, List.tail_cons, bind_ok_iff, expect_ok_iff,
          expectAny_ok_iff, pure_apply, List.mem_cons, List.not_mem_nil, or_false] at run
        obtain ⟨module, _, ⟨isName, same⟩, importing, _, ⟨isImport, rfl⟩, item, _, ⟨isItem, rfl⟩, _, _,
          clauseIs, run⟩ := run
        cases clauseIs
        cases same
        obtain ⟨isRuntime, rfl, rfl⟩ := runtime_checked run
        exact ⟨[keyword, module, importing, item],
          .part keyword module importing item (by simpa using isWord) isName isRuntime isImport isItem,
          rfl⟩
      · cases run

/-- A program that is read is derived from all the tokens there are. -/
theorem program_reads (context : Context) (tokens : List Token) (events : Array Event)
    (program : Program) (after : State)
    (run : Reader.program context ⟨tokens, [], events⟩ = .ok program after) :
    ProgramOf tokens program := by
  simp only [Reader.program, production_apply, bind_of_ok skipNewlines_apply, bind_ok_iff] at run
  obtain ⟨clause, middle, clauseRun, _, _, ended, _, _, found, body, last, bodyRun, kind, _, seen,
    run⟩ := run
  cases found
  cases seen
  obtain ⟨rfl, ending⟩ := lineEnd_ok_iff.mp ended
  have breaks := breaks_takeWhile tokens
  have whole := List.takeWhile_append_dropWhile
    (p := fun token : Token => token.kind == .newline) (l := tokens)
  generalize tokens.takeWhile (fun token => token.kind == .newline) = gap at breaks whole
  generalize tokens.dropWhile (fun token => token.kind == .newline) = unread at clauseRun whole
  obtain ⟨clauseTokens, imported, same⟩ := importClause_reads _ _ _ _ clauseRun
  obtain ⟨bodyTokens, functions, derived, read, appended⟩ :=
    statements_reads (blockWithin_reads _) _ _ _ _ bodyRun
  obtain ⟨rfl, noFunctions, _⟩ := State.mk.inj same
  rw [← noFunctions] at derived appended
  simp only [List.nil_append, List.length_nil] at derived appended
  rw [read] at ending
  cases unread : last.rest with
  | cons token rest =>
      rw [unread] at run
      cases run
  | nil =>
      rw [unread] at run
      cases run
      rw [← whole, read, unread, List.append_nil, appended]
      exact .program gap clauseTokens bodyTokens clause body functions breaks imported
        (lineEnds_of_followed derived ending) derived

end Offside.Grammar
