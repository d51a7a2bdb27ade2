import Mathlib
import Offside.Proofs.Syntax.Soundness
import Offside.Proofs.Traced

/-!
# What has a derivation is read

Every derivation is followed by the readers, whatever stands after its tokens as
long as it cannot be taken for a part of them: an expression must not be
continued by an operator, a chain not by `elif` or `else`. The bounds on nesting
are sufficient when they are no less than the number of tokens derived, because
every level of nesting has a token of its own.

Together with soundness this makes the readers and the grammar agree, and since
readers are functions, a token list stands for at most one program.
-/

namespace Offside.Grammar

open Reader

variable {α : Type}

/-- The reader takes exactly these tokens when `rest` follows them, and changes
    nothing else. -/
def Takes (reader : Reader α) (tokens : List Token) (value : α) (rest : List Token) : Prop :=
  ∀ context functions events,
    reader context ⟨tokens ++ rest, functions, events⟩ = .ok value ⟨rest, functions, events⟩

/-- The reader takes exactly these tokens when `rest` follows them and `first`
    functions were met before, and appends their definitions. -/
def Yields (reader : Reader α) (first : Nat) (tokens : List Token) (value : α)
    (functions : List Definition) (rest : List Token) : Prop :=
  ∀ context before events, before.length = first → ∃ laterEvents,
    reader context ⟨tokens ++ rest, before, events⟩ =
      .ok value ⟨rest, before ++ functions, laterEvents⟩

/-- A token that the grammar does not admit as an operator is not taken for one by the reader. -/
theorem not_isMathOperator {token : Token} (refused : ¬ Operator token) :
    token.kind.isMathOperator = false := by
  rw [← Bool.not_eq_true, isMathOperator_iff]
  exact refused

/-- A token that the grammar does not admit as a comparator is not taken for one by the reader. -/
theorem not_isComparator {token : Token} (refused : ¬ Comparator token) :
    token.kind.isComparator = false := by
  rw [← Bool.not_eq_true, isComparator_iff]
  exact refused

/-- An expression is read up to anything but an operator, which the reader would take for a part of
    it. -/
theorem expression_takes {tokens rest : List Token} {value : Expression}
    (derived : ExpressionOf tokens value) (ending : ∀ token ∈ rest.head?, ¬ Operator token) :
    Takes Reader.expression tokens value rest := by
  intro context functions events
  cases derived with
  | operand left isOperand =>
      simp only [Reader.expression, production_apply, List.cons_append, List.nil_append]
      rw [bind_of_ok (expectAny_cons ((mem_operands_iff left).mpr isOperand)),
        bind_of_ok (accept?_none fun token member => not_isMathOperator (ending token member))]
      rfl
  | operation left operator right leftOperand isOperator rightOperand =>
      simp only [Reader.expression, production_apply, List.cons_append, List.nil_append]
      rw [bind_of_ok (expectAny_cons ((mem_operands_iff left).mpr leftOperand)),
        bind_of_ok (accept?_cons ((isMathOperator_iff operator).mpr isOperator))]
      dsimp only
      rw [bind_of_ok (expectAny_cons ((mem_operands_iff right).mpr rightOperand))]
      rfl

/-- No comparator is an operator, so the left side of a comparison ends at it. -/
theorem not_operator_of_comparator {token : Token} (isComparator : Comparator token) :
    ¬ Operator token := by
  unfold Comparator at isComparator
  unfold Operator
  generalize token.kind = kind at *
  revert isComparator
  cases kind <;> decide

/-- A condition is read up to anything but an operator or a comparator. -/
theorem comparison_takes {tokens rest : List Token} {value : Comparison}
    (derived : ComparisonOf tokens value)
    (ending : ∀ token ∈ rest.head?, ¬ Operator token ∧ ¬ Comparator token) :
    Takes Reader.comparison tokens value rest := by
  intro context functions events
  have noOperator : ∀ token ∈ rest.head?, ¬ Operator token :=
    fun token member => (ending token member).1
  cases derived with
  | expression tokens left leftSide =>
      simp only [Reader.comparison, production_apply]
      rw [bind_of_ok (expression_takes leftSide noOperator _ _ _),
        bind_of_ok (accept?_none fun token member => not_isComparator (ending token member).2)]
      rfl
  | compared leftTokens rightTokens comparator left right leftSide isComparator rightSide =>
      have stops : ∀ token ∈ (comparator :: (rightTokens ++ rest)).head?, ¬ Operator token := by
        intro token member
        obtain rfl : comparator = token := by simpa using member
        exact not_operator_of_comparator isComparator
      simp only [Reader.comparison, production_apply, List.append_assoc, List.cons_append]
      rw [bind_of_ok (expression_takes leftSide stops _ _ _),
        bind_of_ok (accept?_cons ((isComparator_iff comparator).mpr isComparator))]
      dsimp only
      rw [bind_of_ok (expression_takes rightSide noOperator _ _ _)]
      rfl

/-- The stretches of a list are no longer than the whole, and there is a comma
    for every one but the last. -/
theorem listed_length {items : List (List Token)} {tokens : List Token}
    (listed : Listed items tokens) :
    items.length ≤ tokens.length + 1 ∧ ∀ item ∈ items, item.length ≤ tokens.length := by
  induction listed with
  | none => simp
  | one item => simp
  | more item next items comma tokens isComma later ih =>
      obtain ⟨count, shorter⟩ := ih
      refine ⟨by simp only [List.length_cons, List.length_append] at count ⊢; omega, ?_⟩
      intro part member
      rcases List.mem_cons.mp member with rfl | member
      · simp
      · have := shorter part member
        simp only [List.length_append, List.length_cons]
        omega

/-- What may follow an item of a list: the next comma, or the end of the list. -/
def ListGoesOn (rest : List Token) : Prop :=
  ∃ token later, rest = token :: later ∧ (token.kind = .comma ∨ token.kind = .rightParen)

/-- Items are read as long as commas follow, up to the parenthesis that closes the list. The bound
    is high enough for all of them. -/
theorem separatedWithin_takes {item : Reader α} {parts : List (List Token × α)}
    {tokens : List Token} (listed : Listed (parts.map Prod.fst) tokens) (nonempty : parts ≠ [])
    (takes : ∀ part ∈ parts, ∀ rest, ListGoesOn rest → Takes item part.1 part.2 rest)
    {bound : Nat} (enough : parts.length ≤ bound + 1) {right : Token} (rest : List Token)
    (closes : right.kind = .rightParen) :
    Takes (separatedWithin item bound) tokens (parts.map Prod.snd) (right :: rest) := by
  induction parts generalizing tokens bound with
  | nil => exact absurd rfl nonempty
  | cons part parts ih =>
      intro context functions events
      cases parts with
      | nil =>
          obtain rfl : part.1 = tokens := by cases listed; rfl
          have first := takes part (by simp) (right :: rest) ⟨right, rest, rfl, .inr closes⟩
          cases bound with
          | zero =>
              simp only [separatedWithin]
              rw [bind_of_ok (first _ _ _)]
              rfl
          | succ bound =>
              simp only [separatedWithin]
              rw [bind_of_ok (first _ _ _), bind_of_ok (accept?_none (by simp [closes]))]
              rfl
      | cons next parts =>
          cases listed with
          | more _ _ _ comma later isComma listed =>
              cases bound with
              | zero => simp at enough
              | succ bound =>
                  have first := takes part (by simp) (comma :: (later ++ right :: rest))
                    ⟨comma, _, rfl, .inl isComma⟩
                  have others := ih listed (by simp)
                    (fun other member => takes other (List.mem_cons_of_mem part member))
                    (by simpa using enough)
                  simp only [separatedWithin, List.append_assoc, List.cons_append]
                  rw [bind_of_ok (first _ _ _), bind_of_ok (accept?_cons (by simp [isComma]))]
                  dsimp only
                  rw [bind_of_ok (others _ _ _)]
                  rfl

/-- A list between parentheses is read to its closing parenthesis. No item starts
    with one, so an empty list is told apart. -/
theorem parenthesized_takes {item : Reader α} {parts : List (List Token × α)}
    {inner : List Token} {left right : Token} (opens : left.kind = .leftParen)
    (closes : right.kind = .rightParen) (listed : Listed (parts.map Prod.fst) inner)
    (starts : ∀ part ∈ parts, ∃ token rest, part.1 = token :: rest ∧ token.kind ≠ .rightParen)
    (takes : ∀ part ∈ parts, ∀ rest, ListGoesOn rest → Takes item part.1 part.2 rest)
    (rest : List Token) :
    Takes (parenthesized item) (left :: (inner ++ [right])) (parts.map Prod.snd) rest := by
  intro context functions events
  simp only [parenthesized, List.cons_append, List.append_assoc, List.nil_append]
  rw [bind_of_ok (expect_cons opens), bind_of_ok currentKind_apply]
  cases parts with
  | nil =>
      obtain rfl : inner = [] := by cases listed; rfl
      rw [if_pos (by simp [closes]), bind_of_ok (pure_apply _), List.nil_append,
        bind_of_ok (expect_cons closes)]
      rfl
  | cons part parts =>
      obtain ⟨token, later, front, notClosing⟩ := starts part (by simp)
      have head : (inner ++ right :: rest).head? = some token := by
        cases parts with
        | nil =>
            obtain rfl : part.1 = inner := by cases listed; rfl
            simp [front]
        | cons next parts =>
            cases listed
            simp [front]
      have count := (listed_length listed).1
      rw [if_neg (by simp [head, notClosing])]
      simp only [separated, bind_assoc]
      rw [bind_of_ok unread_apply]
      dsimp only
      rw [bind_of_ok (separatedWithin_takes listed (by simp) takes
        (by simp only [List.length_map, List.length_append] at count ⊢; omega) rest closes _ _ _),
        bind_of_ok (expect_cons closes)]
      rfl

/-- An argument starts with a token that does not close the list, so an empty list can be told from
    one with an item. -/
theorem argument_front {tokens : List Token} {value : Value}
    (derived : ArgumentOf tokens value) :
    ∃ token rest, tokens = token :: rest ∧ token.kind ≠ .rightParen := by
  cases derived with
  | operand token isOperand =>
      refine ⟨token, [], rfl, ?_⟩
      intro isClosing
      simp [Operand, Literal, isClosing] at isOperand
  | call callee left right parts inner isCallee =>
      refine ⟨callee, _, rfl, ?_⟩
      intro isClosing
      simp [Callee, isClosing] at isCallee

/-- A call is read when its arguments are, in a call that allows one more level
    of nesting than they need. -/
theorem callWithin_takes_of_arguments {callee left right : Token}
    {parts : List (List Token × Value)} {inner : List Token} (isCallee : Callee callee)
    (opens : left.kind = .leftParen) (closes : right.kind = .rightParen)
    (listed : Listed (parts.map Prod.fst) inner)
    (derived : ∀ part ∈ parts, ArgumentOf part.1 part.2) (bound : Nat)
    (takes : ∀ part ∈ parts, ∀ rest, ListGoesOn rest →
      Takes (argumentWithin bound) part.1 part.2 rest) (rest : List Token) :
    Takes (callWithin (bound + 1)) (callee :: left :: (inner ++ [right]))
      (callee, parts.map Prod.snd) rest := by
  intro context functions events
  have arguments := parenthesized_takes opens closes listed
    (fun part member => argument_front (derived part member)) takes rest
  rw [callWithin_succ, production_apply, List.cons_append,
    bind_of_ok (expectAny_cons ((mem_callees_iff callee).mpr isCallee)),
    bind_of_ok (arguments _ _ _)]
  rfl

/-- An argument is read when calls may nest in it as deep as it has tokens. An
    operand is not taken for a call, since no parenthesis follows it. -/
theorem argumentWithin_takes {tokens : List Token} {value : Value}
    (derived : ArgumentOf tokens value) (bound : Nat) (enough : tokens.length ≤ bound)
    (rest : List Token) (goesOn : ListGoesOn rest) :
    Takes (argumentWithin bound) tokens value rest := by
  induction derived generalizing bound rest with
  | operand token isOperand =>
      obtain ⟨next, later, rfl, isNext⟩ := goesOn
      intro context functions events
      have notShaped : startsCall (token :: next :: later) = false := by
        rcases isNext with isComma | isClosing
        · simp [startsCall, isComma]
        · simp [startsCall, isClosing]
      simp only [argumentWithin, List.cons_append, List.nil_append]
      rw [bind_of_ok atCall_apply, notShaped, if_neg (by simp),
        bind_of_ok (expectAny_cons ((mem_operands_iff token).mpr isOperand))]
      rfl
  | call callee left right parts inner isCallee opens closes listed derived ih =>
      cases bound with
      | zero => simp at enough
      | succ bound =>
          intro context functions events
          have called := callWithin_takes_of_arguments isCallee opens closes listed derived
            bound (by
              intro part member rest goesOn
              apply ih part member bound _ rest goesOn
              have := (listed_length listed).2 part.1 (List.mem_map_of_mem member)
              simp only [List.length_cons, List.length_append, List.length_nil] at enough
              omega) rest
          have shaped : startsCall (callee :: left :: (inner ++ [right]) ++ rest) = true := by
            have isCallee := (mem_callees_iff callee).mpr isCallee
            simp [startsCall, isCallee, opens]
          simp only [argumentWithin]
          rw [bind_of_ok atCall_apply, shaped, if_pos rfl, bind_of_ok (called _ _ _)]
          rfl

/-- A call is read to its closing parenthesis, whatever follows. Its end is marked, and so are those
    of the calls in it. -/
theorem call_takes {tokens : List Token} {callee : Token} {arguments : List Value}
    (derived : ArgumentOf tokens (.call callee arguments)) (rest : List Token) :
    Takes Reader.call tokens (callee, arguments) rest := by
  intro context functions events
  cases derived with
  | call callee left right parts inner isCallee opens closes listed derived =>
      have called := callWithin_takes_of_arguments isCallee opens closes listed derived
        (left :: (inner ++ [right]) ++ rest).length (by
          intro part member later goesOn
          apply argumentWithin_takes (derived part member) _ _ later goesOn
          have := (listed_length listed).2 part.1 (List.mem_map_of_mem member)
          simp only [List.length_cons, List.length_append, List.length_nil]
          omega) rest
      simp only [Reader.call]
      rw [bind_of_ok unread_apply]
      exact called _ _ _

/-- A call fails at a token that cannot be called, before anything is read. -/
theorem call_fails {token : Token} (rest : List Token) (notCallee : ¬ Callee token)
    (context : Context) (functions : List Definition) (events : Array Event) :
    ∃ failure, Reader.call context ⟨token :: rest, functions, events⟩ =
      .error failure ⟨token :: rest, functions, events⟩ := by
  obtain ⟨failure, failed⟩ := expectAny_fails callees
    ⟨context.trail ++ ["call"], context.size, context.lastLine⟩
    ⟨token :: rest, functions, events⟩ (by simpa [mem_callees_iff] using notCallee)
  refine ⟨failure, ?_⟩
  simp only [Reader.call]
  rw [bind_of_ok unread_apply, List.length_cons, callWithin_succ, production_apply,
    bind_of_error failed]

/-- The initial value of a declaration is read up to anything. A literal is tried
    as a call first, which leaves reports but no definition. -/
theorem initialValue_yields {tokens : List Token} {value : Value}
    (derived : InitialOf tokens value) (first : Nat) (rest : List Token) :
    Yields initialValue first tokens value [] rest := by
  intro context before events counted
  rw [initialValue_eq, List.append_nil]
  rw [bind_of_ok atCall_apply, bind_of_ok unread_apply, tryCatch_apply]
  cases derived with
  | call tokens callee arguments derived =>
      refine ⟨events, ?_⟩
      rw [calledValue, bind_of_ok (call_takes derived rest _ _ _)]
      rfl
  | literal token isLiteral =>
      have notCallee : ¬ Callee token := by
        intro isCallee
        rcases isCallee with isName | isPrint
        · simp [Literal, isName] at isLiteral
        · simp [Literal, isPrint] at isLiteral
      have notShaped : startsCall ([token] ++ rest) = false := by
        have refused : token.kind ∉ callees := fun member =>
          notCallee ((mem_callees_iff token).mp member)
        cases rest <;> simp [startsCall, refused]
      obtain ⟨failure, failed⟩ := call_fails rest notCallee context before events
      have attempt : calledValue context ⟨[token] ++ rest, before, events⟩ =
          .error failure ⟨[token] ++ rest, before, events⟩ := by
        rw [calledValue, List.cons_append, List.nil_append, bind_of_error failed]
      rw [attempt, notShaped]
      obtain ⟨laterEvents, again⟩ := literalAfter_false ([token] ++ rest) failure context
        ⟨[token] ++ rest, before, events⟩
      refine ⟨laterEvents, ?_⟩
      dsimp only at again ⊢
      rw [again, map_eq_pure_bind, List.cons_append, List.nil_append,
        bind_of_ok (expectAny_cons ((mem_literals_iff token).mpr isLiteral))]
      rfl

/-- What may follow a simple statement: a line break, or the end of the block or
    of the input. -/
def LineCanEnd (rest : List Token) : Prop :=
  ∀ token ∈ rest.head?, token.kind = .newline ∨ token.kind = .closeBlock

/-- A simple statement is read up to the end of its line. -/
theorem statement_yields_simple (block : Reader (Block Statement)) {tokens rest : List Token}
    {value : Statement} (derived : SimpleOf tokens value) (first : Nat) (ending : LineCanEnd rest) :
    Yields (Reader.statement block) first tokens value [] rest := by
  intro context before events counted
  simp only [Reader.statement, production_apply, List.append_nil]
  rw [bind_of_ok currentKind_apply]
  cases derived with
  | declaration name colon type assign tokens value isName isColon isType isAssign initial =>
      obtain ⟨laterEvents, run⟩ := initialValue_yields initial first rest
        ⟨context.trail ++ ["statement"] ++ ["declaration"], context.size, context.lastLine⟩
        before events counted
      refine ⟨laterEvents, ?_⟩
      simp only [List.cons_append, List.head?_cons, Option.map_some, isName, namedStatement]
      rw [bind_of_ok nextKind_apply]
      simp only [List.getElem?_cons_succ, List.getElem?_cons_zero, Option.map_some, isColon,
        Reader.declaration, production_apply]
      rw [bind_of_ok (expect_cons isName), bind_of_ok (expect_cons isColon),
        bind_of_ok (expect_cons isType), bind_of_ok (expect_cons isAssign), bind_of_ok run]
      simp
  | manipulation target assign tokens value isTarget isAssign assigned =>
      have stops : ∀ token ∈ rest.head?, ¬ Operator token := by
        intro token member
        rcases ending token member with isBreak | isClose
        · simp [Operator, isBreak]
        · simp [Operator, isClose]
      refine ⟨events, ?_⟩
      simp only [List.cons_append, List.head?_cons, Option.map_some, isTarget, namedStatement]
      rw [bind_of_ok nextKind_apply]
      simp only [List.getElem?_cons_succ, List.getElem?_cons_zero, Option.map_some, isAssign,
        Reader.manipulation, production_apply]
      rw [bind_of_ok (expect_cons isTarget), bind_of_ok (expect_cons isAssign),
        bind_of_ok (expression_takes assigned stops _ _ _)]
      rfl
  | call tokens callee arguments derived =>
      have called : callStatement ⟨context.trail ++ ["statement"], context.size, context.lastLine⟩
          ⟨tokens ++ rest, before, events⟩ =
          .ok (.call callee arguments) ⟨rest, before, events⟩ := by
        simp only [callStatement]
        rw [bind_of_ok (call_takes derived rest _ _ _)]
        rfl
      obtain ⟨isCallee, left, later, rfl, opens⟩ := call_front derived
      refine ⟨events, ?_⟩
      rcases isCallee with isName | isPrint
      · simp only [List.cons_append, List.head?_cons, Option.map_some, isName, namedStatement]
        rw [bind_of_ok nextKind_apply]
        simp only [List.getElem?_cons_succ, List.getElem?_cons_zero, Option.map_some, opens]
        exact called
      · simp only [List.cons_append, List.head?_cons, Option.map_some, isPrint]
        exact called
  | returnValue keyword value isReturn isOperand =>
      refine ⟨events, ?_⟩
      simp only [List.cons_append, List.nil_append, List.head?_cons, Option.map_some, isReturn,
        Reader.returnValue, production_apply]
      rw [bind_of_ok (expect_cons isReturn),
        bind_of_ok (expectAny_cons ((mem_operands_iff value).mpr isOperand))]
      rfl

section Compound

variable {block : Reader (Block Statement)} {first : Nat} {tokens rest : List Token}
  {body : Block Statement} {functions : List Definition}

/-- A loop over a range is read to the end of its block, if the block is. All other tokens of it
    stand at fixed places. -/
theorem forRange_yields {keyword counter inside range left start comma stop right : Token}
    (isFor : keyword.kind = .forWord) (isCounter : counter.kind = .identifier)
    (isIn : inside.kind = .inWord) (isRange : range.kind = .range) (opens : left.kind = .leftParen)
    (startBound : Bound start) (isComma : comma.kind = .comma) (stopBound : Bound stop)
    (closes : right.kind = .rightParen) (bodyYields : Yields block first tokens body functions rest) :
    Yields (Reader.statement block) first
      (keyword :: counter :: inside :: range :: left :: start :: comma :: stop :: right :: tokens)
      (.forRange keyword counter start stop body) functions rest := by
  intro context before events counted
  obtain ⟨laterEvents, run⟩ := bodyYields
    ⟨context.trail ++ ["statement"] ++ ["for"], context.size, context.lastLine⟩ before events counted
  refine ⟨laterEvents, ?_⟩
  simp only [Reader.statement, production_apply, List.cons_append]
  rw [bind_of_ok currentKind_apply]
  simp only [List.head?_cons, Option.map_some, isFor, Reader.forRange, production_apply]
  rw [bind_of_ok (expect_cons isFor), bind_of_ok (expect_cons isCounter),
    bind_of_ok (expect_cons isIn), bind_of_ok (expect_cons isRange), bind_of_ok (expect_cons opens),
    bind_of_ok (expectAny_cons ((mem_bounds_iff start).mpr startBound)),
    bind_of_ok (expect_cons isComma),
    bind_of_ok (expectAny_cons ((mem_bounds_iff stop).mpr stopBound)),
    bind_of_ok (expect_cons closes), bind_of_ok run]
  rfl

/-- A condition ends at the colon of its block, for a colon is neither an operator nor a
    comparator. -/
theorem comparison_takes_block {condition : List Token} {comparison : Comparison}
    (compared : ComparisonOf condition comparison)
    (derived : Derives first tokens (.block body) functions) (rest : List Token) :
    Takes Reader.comparison condition comparison (tokens ++ rest) := by
  apply comparison_takes compared
  cases derived with
  | block _ colon newline close tokens statements _ isColon =>
      intro token member
      obtain rfl : colon = token := by simpa using member
      exact ⟨by simp [Operator, isColon], by simp [Comparator, isColon]⟩

/-- A loop with a condition is read to the end of its block, if the block is. -/
theorem whileLoop_yields {keyword : Token} {condition : List Token} {comparison : Comparison}
    (isWhile : keyword.kind = .whileWord) (compared : ComparisonOf condition comparison)
    (derived : Derives first tokens (.block body) functions)
    (bodyYields : Yields block first tokens body functions rest) :
    Yields (Reader.statement block) first (keyword :: (condition ++ tokens))
      (.whileLoop keyword comparison body) functions rest := by
  intro context before events counted
  obtain ⟨laterEvents, run⟩ := bodyYields
    ⟨context.trail ++ ["statement"] ++ ["while"], context.size, context.lastLine⟩ before events
    counted
  refine ⟨laterEvents, ?_⟩
  simp only [Reader.statement, production_apply, List.cons_append, List.append_assoc]
  rw [bind_of_ok currentKind_apply]
  simp only [List.head?_cons, Option.map_some, isWhile, Reader.whileLoop, production_apply]
  rw [bind_of_ok (expect_cons isWhile),
    bind_of_ok (comparison_takes_block compared derived rest _ _ _), bind_of_ok run]
  rfl

/-- A branch is read to the end of its block, whichever word it starts with. -/
theorem branch_yields {word : Kind} {keyword : Token} {condition : List Token}
    {comparison : Comparison} (isWord : keyword.kind = word)
    (compared : ComparisonOf condition comparison)
    (derived : Derives first tokens (.block body) functions)
    (bodyYields : Yields block first tokens body functions rest) :
    Yields (Reader.branch block word) first (keyword :: (condition ++ tokens))
      ⟨keyword, comparison, body⟩ functions rest := by
  intro context before events counted
  obtain ⟨laterEvents, run⟩ := bodyYields context before events counted
  refine ⟨laterEvents, ?_⟩
  simp only [Reader.branch, List.cons_append, List.append_assoc]
  rw [bind_of_ok (expect_cons isWord),
    bind_of_ok (comparison_takes_block compared derived rest _ _ _), bind_of_ok run]
  rfl

/-- Skipping line breaks stops at the first token that is none, so it takes away exactly the gap in
    front of it. -/
theorem dropWhile_breaks {gap body : List Token} (breaks : Breaks gap)
    (front : ∀ token ∈ body.head?, token.kind ≠ .newline) :
    (gap ++ body).dropWhile (fun token => token.kind == .newline) = body := by
  rw [List.dropWhile_append_of_pos (by simpa [Breaks] using breaks)]
  cases body with
  | nil => rfl
  | cons token body => simp [front token (by simp)]

/-- Line breaks and then nothing that could continue a chain. -/
def ChainEnds (rest : List Token) : Prop :=
  ∀ token ∈ (rest.dropWhile (fun token => token.kind == .newline)).head?,
    token.kind ≠ .elifWord ∧ token.kind ≠ .elseWord

/-- Where no branch follows, a chain ends and the line breaks that were skipped
    are given back. -/
theorem continuation_yields_end (block : Reader (Block Statement)) (first bound : Nat)
    (ends : ChainEnds rest) :
    Yields (Reader.continuation block bound) first [] ([], none) [] rest := by
  intro context before events counted
  simp only [List.nil_append, List.append_nil]
  cases bound with
  | zero =>
      obtain ⟨event, rewound⟩ := rewind_apply rest context ⟨rest, before, events⟩
      refine ⟨events.push event, ?_⟩
      simp only [Reader.continuation]
      rw [bind_of_ok unread_apply, bind_of_ok rewound]
      rfl
  | succ bound =>
      obtain ⟨event, rewound⟩ := rewind_apply rest context
        ⟨rest.dropWhile (fun token => token.kind == .newline), before, events⟩
      refine ⟨events.push event, ?_⟩
      simp only [Reader.continuation]
      rw [bind_of_ok unread_apply, bind_of_ok skipNewlines_apply, bind_of_ok currentKind_apply]
      unfold ChainEnds at ends
      generalize rest.dropWhile (fun token => token.kind == .newline) = unread at *
      have notElif : Option.map Token.kind unread.head? ≠ some .elifWord := by
        intro found
        obtain ⟨token, member, isElif⟩ := Option.map_eq_some_iff.mp found
        exact (ends token member).1 isElif
      have notElse : Option.map Token.kind unread.head? ≠ some .elseWord := by
        intro found
        obtain ⟨token, member, isElse⟩ := Option.map_eq_some_iff.mp found
        exact (ends token member).2 isElse
      dsimp only
      generalize Option.map Token.kind unread.head? = kind at *
      split
      · exact absurd rfl notElif
      · exact absurd rfl notElse
      · rw [bind_of_ok rewound]
        rfl

/-- The `else` that ends a chain is read to the end of its block, after any line breaks. It takes
    one unit of the bound. -/
theorem continuation_yields_otherwise {gap : List Token} {keyword : Token} (breaks : Breaks gap)
    (isElse : keyword.kind = .elseWord) (bodyYields : Yields block first tokens body functions rest)
    (bound : Nat) :
    Yields (Reader.continuation block (bound + 1)) first (gap ++ keyword :: tokens)
      ([], some body) functions rest := by
  intro context before events counted
  obtain ⟨laterEvents, run⟩ := bodyYields context before events counted
  refine ⟨laterEvents, ?_⟩
  simp only [Reader.continuation, List.append_assoc, List.cons_append]
  rw [bind_of_ok unread_apply, bind_of_ok skipNewlines_apply, bind_of_ok currentKind_apply]
  dsimp only
  rw [dropWhile_breaks breaks (by simp [isElse])]
  simp only [List.head?_cons, Option.map_some, isElse]
  rw [bind_of_ok advance_apply, List.tail_cons, bind_of_ok run]
  rfl

/-- A further branch of a chain is read after any line breaks, and then what continues the chain
    behind it, with a bound that is lower by one. -/
theorem continuation_yields_branch {gap condition later : List Token} {keyword : Token}
    {comparison : Comparison} {branches : List (Branch Statement)}
    {otherwise : Option (Block Statement)} {laterFunctions : List Definition} {bound : Nat}
    (breaks : Breaks gap) (isElif : keyword.kind = .elifWord)
    (compared : ComparisonOf condition comparison)
    (derived : Derives first tokens (.block body) functions)
    (bodyYields : Yields block first tokens body functions (later ++ rest))
    (laterYields : Yields (Reader.continuation block bound) (first + functions.length) later
      (branches, otherwise) laterFunctions rest) :
    Yields (Reader.continuation block (bound + 1)) first
      (gap ++ keyword :: (condition ++ (tokens ++ later)))
      (⟨keyword, comparison, body⟩ :: branches, otherwise) (functions ++ laterFunctions) rest := by
  intro context before events counted
  obtain ⟨middleEvents, branchRun⟩ := branch_yields isElif compared derived bodyYields context before
    events counted
  obtain ⟨laterEvents, laterRun⟩ := laterYields context (before ++ functions) middleEvents
    (by rw [List.length_append, counted])
  refine ⟨laterEvents, ?_⟩
  simp only [Reader.continuation, List.append_assoc, List.cons_append] at branchRun ⊢
  rw [bind_of_ok unread_apply, bind_of_ok skipNewlines_apply, bind_of_ok currentKind_apply]
  dsimp only
  rw [dropWhile_breaks breaks (by simp [isElif])]
  simp only [List.head?_cons, Option.map_some, isElif]
  rw [bind_of_ok branchRun, bind_of_ok laterRun]
  simp

/-- A chain is read to its end: its first branch, and then what continues it, with as large a bound
    as there are tokens left. -/
theorem ifChain_yields {condition later : List Token} {keyword : Token}
    {comparison : Comparison} {branches : List (Branch Statement)}
    {otherwise : Option (Block Statement)} {laterFunctions : List Definition}
    (isIf : keyword.kind = .ifWord) (compared : ComparisonOf condition comparison)
    (derived : Derives first tokens (.block body) functions)
    (bodyYields : Yields block first tokens body functions (later ++ rest))
    (laterYields : Yields (Reader.continuation block (later ++ rest).length)
      (first + functions.length) later (branches, otherwise) laterFunctions rest) :
    Yields (Reader.statement block) first (keyword :: (condition ++ (tokens ++ later)))
      (.ifChain (⟨keyword, comparison, body⟩ :: branches) otherwise)
      (functions ++ laterFunctions) rest := by
  intro context before events counted
  obtain ⟨within, sameWithin⟩ : ∃ within : Context,
      within = ⟨context.trail ++ ["statement"] ++ ["if"], context.size, context.lastLine⟩ := ⟨_, rfl⟩
  obtain ⟨middleEvents, branchRun⟩ := branch_yields isIf compared derived bodyYields within before
    events counted
  obtain ⟨laterEvents, laterRun⟩ := laterYields within (before ++ functions) middleEvents
    (by rw [List.length_append, counted])
  refine ⟨laterEvents, ?_⟩
  simp only [List.append_assoc, List.cons_append] at branchRun laterRun ⊢
  simp only [Reader.statement, production_apply]
  rw [bind_of_ok currentKind_apply]
  simp only [List.head?_cons, Option.map_some, isIf, Reader.ifChain, production_apply]
  rw [← sameWithin, bind_of_ok branchRun, bind_of_ok unread_apply, bind_of_ok laterRun]
  rfl

/-- A parameter is read to the end of its type, whatever follows. -/
theorem parameter_takes {parameter : Parameter} (derived : ParameterOf tokens parameter)
    (rest : List Token) : Takes Reader.parameter tokens parameter rest := by
  intro context functions events
  cases derived with
  | typed name colon type isName isColon isType =>
      simp only [Reader.parameter, List.cons_append, List.nil_append]
      rw [bind_of_ok (expect_cons isName), bind_of_ok (expect_cons isColon),
        bind_of_ok (expect_cons isType)]
      rfl

/-- Parameters are read to the parenthesis that closes them, whatever follows, even if there are
    none. -/
theorem parameters_take {left right : Token} {inner : List Token} {parameters : List Parameter}
    (opens : left.kind = .leftParen) (listed : ParametersOf inner parameters)
    (closes : right.kind = .rightParen) (rest : List Token) :
    Takes (parenthesized Reader.parameter) (left :: (inner ++ [right])) parameters rest := by
  obtain ⟨parts, listedParts, derived, rfl⟩ := listed
  refine parenthesized_takes opens closes listedParts ?_
    (fun part member rest _ => parameter_takes (derived part member) rest) rest
  intro part member
  have partDerived := derived part member
  generalize part.1 = partTokens, part.2 = parameter at partDerived
  cases partDerived with
  | typed name colon type isName => exact ⟨name, _, rfl, by simp [isName]⟩

/-- The result type is read up to anything but an arrow. An arrow would start a result where there
    is none yet. -/
theorem resultType_takes {returns : Option Token} (rest : List Token)
    (derived : ResultOf tokens returns)
    (ending : ∀ token ∈ rest.head?, token.kind ≠ .arrow) :
    Takes Reader.resultType tokens returns rest := by
  intro context functions events
  cases derived with
  | missing =>
      simp only [Reader.resultType, List.nil_append]
      rw [bind_of_ok (accept?_none (by simpa using ending))]
      rfl
  | null arrow type isArrow isNull =>
      simp only [Reader.resultType, List.cons_append, List.nil_append]
      rw [bind_of_ok (accept?_cons (by simp [isArrow]))]
      dsimp only
      rw [bind_of_ok (expectAny_cons (by simp [isNull]))]
      simp [Token.isIdentifier, isNull]
  | named arrow type isArrow isName =>
      simp only [Reader.resultType, List.cons_append, List.nil_append]
      rw [bind_of_ok (accept?_cons (by simp [isArrow]))]
      dsimp only
      rw [bind_of_ok (expectAny_cons (by simp [isName]))]
      simp [Token.isIdentifier, isName]

/-- A definition is read to the end of its body and appended to the functions met
    before, those of its body included. -/
theorem definition_yields {keyword name left right : Token} {inner resultTokens : List Token}
    {parameters : List Parameter} {returns : Option Token} (isDef : keyword.kind = .defWord)
    (isName : name.kind = .identifier) (opens : left.kind = .leftParen)
    (listed : ParametersOf inner parameters) (closes : right.kind = .rightParen)
    (result : ResultOf resultTokens returns)
    (derived : Derives first tokens (.block body) functions)
    (bodyYields : Yields block first tokens body functions rest) :
    Yields (Reader.statement block) first
      (keyword :: name :: left :: (inner ++ right :: (resultTokens ++ tokens)))
      (.hoisted (first + functions.length) keyword.line)
      (functions ++ [⟨keyword, name, parameters, returns, body⟩]) rest := by
  intro context before events counted
  have parametersTake := parameters_take opens listed closes (resultTokens ++ (tokens ++ rest))
  have resultTakes := resultType_takes (tokens ++ rest) result (by
    cases derived with
    | block _ colon newline close tokens statements _ isColon => simp [isColon])
  obtain ⟨laterEvents, run⟩ := bodyYields
    ⟨context.trail ++ ["statement"] ++ ["function"], context.size, context.lastLine⟩ before events
    counted
  refine ⟨laterEvents.push (.hoisted name.lexeme (before ++ functions).length), ?_⟩
  simp only [Takes, List.cons_append, List.append_assoc, List.nil_append] at parametersTake
  simp only [List.cons_append, List.append_assoc]
  simp only [Reader.statement, production_apply]
  rw [bind_of_ok currentKind_apply]
  simp only [List.head?_cons, Option.map_some, isDef, Reader.definition, production_apply]
  rw [bind_of_ok (expect_cons isDef), bind_of_ok (expect_cons isName),
    bind_of_ok (parametersTake _ _ _), bind_of_ok (resultTakes _ _ _), bind_of_ok run]
  simp only [hoist]
  rw [bind_of_ok get_apply, bind_of_ok (report_apply _), bind_of_ok (modify_apply _)]
  simp [counted]

/-- The end of a statement list: of its block, or of the input. -/
def ListEnds (rest : List Token) : Prop :=
  ∀ token ∈ rest.head?, token.kind = .closeBlock

/-- At the end of a list of statements only line breaks are read. Each of them takes one unit of the
    bound at most. -/
theorem statementsWithin_yields_end (block : Reader (Block Statement)) (first : Nat)
    {gap : List Token} (breaks : Breaks gap) (ends : ListEnds rest) {bound : Nat}
    (enough : gap.length ≤ bound) :
    Yields (Reader.statementsWithin block bound) first gap [] [] rest := by
  intro context before events counted
  refine ⟨events, ?_⟩
  rw [List.append_nil]
  cases bound with
  | zero =>
      obtain rfl : gap = [] := List.eq_nil_of_length_eq_zero (Nat.le_zero.mp enough)
      rfl
  | succ bound =>
      simp only [Reader.statementsWithin]
      rw [bind_of_ok skipNewlines_apply, bind_of_ok currentKind_apply]
      dsimp only
      rw [dropWhile_breaks breaks (fun token member => by simp [ends token member])]
      cases rest with
      | nil => rfl
      | cons close rest =>
          simp only [List.head?_cons, Option.map_some, ends close (by simp)]
          rfl

/-- A statement that is read together with what must follow it, and then the rest
    of the list. -/
theorem statementsWithin_yields_cons {gap later : List Token} {statement : Statement}
    {statements : List Statement} {laterFunctions : List Definition} {bound : Nat}
    (breaks : Breaks gap)
    (front : ∃ token following, tokens = token :: following ∧ StartsStatement token)
    (yields : Yields (Reader.terminatedStatement block) first tokens statement functions
      (later ++ rest))
    (laterYields : Yields (Reader.statementsWithin block bound) (first + functions.length) later
      statements laterFunctions rest) :
    Yields (Reader.statementsWithin block (bound + 1)) first (gap ++ (tokens ++ later))
      (statement :: statements) (functions ++ laterFunctions) rest := by
  intro context before events counted
  obtain ⟨middleEvents, run⟩ := yields context before events counted
  obtain ⟨laterEvents, laterRun⟩ := laterYields context (before ++ functions) middleEvents
    (by rw [List.length_append, counted])
  refine ⟨laterEvents, ?_⟩
  obtain ⟨token, following, rfl, starts⟩ := front
  have notBreak : token.kind ≠ .newline := by
    intro isBreak
    simp [StartsStatement, isBreak] at starts
  have notClose : token.kind ≠ .closeBlock := by
    intro isClose
    simp [StartsStatement, isClose] at starts
  simp only [Reader.statementsWithin, List.append_assoc, List.cons_append] at run laterRun ⊢
  rw [bind_of_ok skipNewlines_apply, bind_of_ok currentKind_apply]
  dsimp only
  rw [dropWhile_breaks breaks (by simpa using notBreak)]
  -- `notClose` is what selects the last alternative here.
  simp only [List.head?_cons, Option.map_some]
  rw [bind_of_ok run, bind_of_ok laterRun]
  rfl

/-- A statement on one line is read to the end of its line, which must be a line break or the end of
    the list. -/
theorem terminatedStatement_yields_simple {statement : Statement}
    (derived : SimpleOf tokens statement) (first : Nat) (ending : LineCanEnd rest) :
    Yields (Reader.terminatedStatement block) first tokens statement [] rest := by
  intro context before events counted
  obtain ⟨laterEvents, run⟩ := statement_yields_simple block derived first ending context before
    events counted
  have ended : lineEnd context ⟨rest, before ++ [], laterEvents⟩ =
      .ok () ⟨rest, before ++ [], laterEvents⟩ := lineEnd_ok_iff.mpr ⟨rfl, ending⟩
  refine ⟨laterEvents, ?_⟩
  simp only [Reader.terminatedStatement]
  rw [bind_of_ok run, endsWithBlock_of_simple derived, if_neg (by simp), bind_of_ok ended]
  rfl

/-- A statement with a block at its end is read as it is, and nothing has to follow it. -/
theorem terminatedStatement_yields_compound {statement : Statement}
    (derived : Derives first tokens (.compound statement) functions)
    (yields : Yields (Reader.statement block) first tokens statement functions rest) :
    Yields (Reader.terminatedStatement block) first tokens statement functions rest := by
  intro context before events counted
  obtain ⟨laterEvents, run⟩ := yields context before events counted
  refine ⟨laterEvents, ?_⟩
  simp only [Reader.terminatedStatement]
  rw [bind_of_ok run, endsWithBlock_of_compound derived, if_pos rfl]
  rfl

/-- A block is read from its colon to its end, if the statements in it are read with a bound that is
    lower by one. -/
theorem blockWithin_yields {colon newline close : Token} {statements : List Statement}
    {bound : Nat} (isColon : colon.kind = .colon) (isBreak : newline.kind = .newline)
    (isClose : close.kind = .closeBlock) (nonempty : statements ≠ [])
    (yields : Yields (Reader.statementsWithin (blockWithin bound) (tokens ++ close :: rest).length)
      first tokens statements functions (close :: rest)) :
    Yields (blockWithin (bound + 1)) first (colon :: newline :: (tokens ++ [close]))
      ⟨colon.line, statements⟩ functions rest := by
  intro context before events counted
  obtain ⟨laterEvents, run⟩ := yields
    ⟨context.trail ++ ["block"], context.size, context.lastLine⟩ before events counted
  refine ⟨laterEvents, ?_⟩
  simp only [List.append_assoc, List.cons_append, List.nil_append]
  simp only [blockWithin, production_apply, Reader.statements]
  rw [bind_of_ok currentLine_apply, bind_of_ok (expect_cons isColon),
    bind_of_ok (expect_cons isBreak), bind_assoc, bind_of_ok unread_apply, bind_of_ok run,
    bind_of_ok currentKind_apply]
  obtain ⟨statement, later, rfl⟩ := List.exists_cons_of_ne_nil nonempty
  simp only [List.head?_cons, Option.map_some, isClose]
  rfl

end Compound

/-- What reading a derivation means for each kind of phrase. Bounds are at least
    the number of derived tokens, and what follows must not continue the
    phrase. -/
def Completes (first : Nat) (tokens : List Token) (functions : List Definition) : Phrase → Prop
  | .block body => ∀ bound rest, tokens.length ≤ bound →
      Yields (blockWithin bound) first tokens body functions rest
  | .continuation branches otherwise => ∀ depth bound rest, tokens.length ≤ depth →
      tokens.length ≤ bound → ChainEnds rest →
      Yields (Reader.continuation (blockWithin depth) bound) first tokens (branches, otherwise)
        functions rest
  | .compound statement => ∀ depth rest, tokens.length ≤ depth → ChainEnds rest →
      Yields (Reader.statement (blockWithin depth)) first tokens statement functions rest
  | .statements statements => ∀ depth bound rest, tokens.length ≤ depth →
      tokens.length ≤ bound → ListEnds rest →
      Yields (Reader.statementsWithin (blockWithin depth) bound) first tokens statements functions
        rest

/-- A statement list and its end never continue a chain that stands before
    them. -/
theorem chainEnds_of_statements {first : Nat} {tokens rest : List Token}
    {statements : List Statement} {functions : List Definition}
    (derived : Derives first tokens (.statements statements) functions) (ends : ListEnds rest) :
    ChainEnds (tokens ++ rest) := by
  obtain ⟨gap, body, rfl, breaks, starts⟩ := statements_front derived
  have front : ∀ token ∈ (body ++ rest).head?, token.kind ≠ .newline ∧ token.kind ≠ .elifWord ∧
      token.kind ≠ .elseWord := by
    intro token member
    cases body with
    | nil => simp [ends token (by simpa using member)]
    | cons other body =>
        obtain rfl : other = token := by simpa using member
        have startsHere := starts other (by simp)
        refine ⟨?_, ?_, ?_⟩ <;>
        · intro same
          simp [StartsStatement, same] at startsHere
  rw [List.append_assoc]
  unfold ChainEnds
  rw [dropWhile_breaks breaks fun token member => (front token member).1]
  exact fun token member => (front token member).2

/-- What follows a simple statement in a list of statements, and then the list. -/
theorem lineCanEnd_of_ends {later rest : List Token} (ends : LineEnds later)
    (listEnds : ListEnds rest) : LineCanEnd (later ++ rest) := by
  intro next member
  cases later with
  | nil => exact .inr (listEnds next (by simpa using member))
  | cons newline later =>
      obtain rfl : newline = next := by simpa using member
      exact .inl (ends newline (by simp))

/-- Every derivation is followed by the readers. The induction is on the
    derivation: each production asks for its parts with what is left of its
    bounds after its own tokens. -/
theorem derives_completes {first : Nat} {tokens : List Token} {phrase : Phrase}
    {functions : List Definition} (derived : Derives first tokens phrase functions) :
    Completes first tokens functions phrase := by
  induction derived with
  | block first colon newline close tokens statements functions isColon isBreak isClose nonempty
      derived ih =>
      intro bound rest enough
      cases bound with
      | zero => simp at enough
      | succ bound =>
          simp only [List.length_cons, List.length_append, List.length_nil] at enough
          refine blockWithin_yields isColon isBreak isClose nonempty (ih bound _ _ ?_ ?_ ?_)
          · omega
          · simp
          · intro token member
            obtain rfl : close = token := by simpa using member
            exact isClose
  | chainEnd first =>
      intro depth bound rest _ _ ends
      exact continuation_yields_end (blockWithin depth) first bound ends
  | otherwise first gap keyword tokens body functions breaks isElse derived ih =>
      intro depth bound rest deep enough ends
      simp only [List.length_append, List.length_cons] at deep enough
      cases bound with
      | zero => omega
      | succ bound =>
          exact continuation_yields_otherwise breaks isElse (ih depth rest (by omega)) bound
  | branch first gap keyword condition tokens later comparison body branches otherwise functions
      laterFunctions breaks isElif compared derived continued ih laterIh =>
      intro depth bound rest deep enough ends
      simp only [List.length_append, List.length_cons] at deep enough
      cases bound with
      | zero => omega
      | succ bound =>
          exact continuation_yields_branch breaks isElif compared derived
            (ih depth (later ++ rest) (by omega)) (laterIh depth bound rest (by omega) (by omega) ends)
  | forRange first keyword counter inside range left start comma stop right tokens body functions
      isFor isCounter isIn isRange opens startBound isComma stopBound closes derived ih =>
      intro depth rest deep _
      simp only [List.length_cons] at deep
      exact forRange_yields isFor isCounter isIn isRange opens startBound isComma stopBound closes
        (ih depth rest (by omega))
  | whileLoop first keyword condition tokens comparison body functions isWhile compared derived ih =>
      intro depth rest deep _
      simp only [List.length_cons, List.length_append] at deep
      exact whileLoop_yields isWhile compared derived (ih depth rest (by omega))
  | ifChain first keyword condition tokens later comparison body branches otherwise functions
      laterFunctions isIf compared derived continued ih laterIh =>
      intro depth rest deep ends
      simp only [List.length_cons, List.length_append] at deep
      exact ifChain_yields isIf compared derived (ih depth (later ++ rest) (by omega))
        (laterIh depth _ rest (by omega) (by simp) ends)
  | definition first keyword name left right inner resultTokens tokens parameters returns body
      functions isDef isName opens listed closes result derived ih =>
      intro depth rest deep _
      simp only [List.length_cons, List.length_append] at deep
      exact definition_yields isDef isName opens listed closes result derived
        (ih depth rest (by omega))
  | listEnd first gap breaks =>
      intro depth bound rest _ enough ends
      exact statementsWithin_yields_end (blockWithin depth) first breaks ends enough
  | simple first gap tokens later statement statements functions breaks derived ends continued ih =>
      intro depth bound rest deep enough listEnds
      obtain ⟨token, following, same, starts⟩ := simple_front derived
      cases bound with
      | zero => simp [same] at enough
      | succ bound =>
          simp only [same, List.length_append, List.length_cons] at deep enough
          simpa using statementsWithin_yields_cons breaks ⟨token, following, same, starts⟩
            (terminatedStatement_yields_simple derived first (lineCanEnd_of_ends ends listEnds))
            (ih depth bound rest (by omega) (by omega) listEnds)
  | compound first gap tokens later statement statements functions laterFunctions breaks derived
      continued ih laterIh =>
      intro depth bound rest deep enough listEnds
      obtain ⟨token, following, same, starts⟩ := compound_front derived
      cases bound with
      | zero => simp [same] at enough
      | succ bound =>
          simp only [List.length_append] at deep enough
          have longer : 0 < tokens.length := by simp [same]
          exact statementsWithin_yields_cons breaks ⟨token, following, same, starts⟩
            (terminatedStatement_yields_compound derived
              (ih depth (later ++ rest) (by omega) (chainEnds_of_statements continued listEnds)))
            (laterIh depth bound rest (by omega) (by omega) listEnds)

/-- The import clause is read up to anything, in either of its two forms. -/
theorem importClause_takes {tokens : List Token} {clause : ImportClause}
    (derived : ImportOf tokens clause) (rest : List Token) :
    Takes Reader.importClause tokens clause rest := by
  intro context functions events
  cases derived with
  | whole keyword module isImport isName isRuntime =>
      simp only [Reader.importClause, production_apply, List.cons_append, List.nil_append]
      rw [bind_of_ok currentLine_apply, bind_of_ok currentKind_apply]
      simp only [List.head?_cons, Option.map_some, Option.getD_some, isImport]
      rw [bind_of_ok advance_apply, List.tail_cons, bind_of_ok (expect_cons isName),
        bind_of_ok (pure_apply _), if_neg (by simp [isRuntime, runtimeModule])]
      rfl
  | part keyword module importing item isFrom isName isRuntime isImport isItem =>
      simp only [Reader.importClause, production_apply, List.cons_append, List.nil_append]
      rw [bind_of_ok currentLine_apply, bind_of_ok currentKind_apply]
      simp only [List.head?_cons, Option.map_some, Option.getD_some, isFrom]
      rw [bind_of_ok advance_apply, List.tail_cons, bind_of_ok (expect_cons isName),
        bind_of_ok (expect_cons isImport), bind_of_ok (expectAny_cons (by simpa using isItem)),
        bind_of_ok (pure_apply _), if_neg (by simp [isRuntime, runtimeModule])]
      rfl

/-- The import clause starts with a word, so skipping line breaks stops in front of it. -/
theorem import_front {tokens : List Token} {clause : ImportClause}
    (derived : ImportOf tokens clause) :
    ∃ token rest, tokens = token :: rest ∧ token.kind ≠ .newline := by
  cases derived with
  | whole keyword module isImport => exact ⟨keyword, _, rfl, by simp [isImport]⟩
  | part keyword module importing item isFrom => exact ⟨keyword, _, rfl, by simp [isFrom]⟩

/-- A token list that stands for a program is read as that program. -/
theorem program_completes {tokens : List Token} {program : Program}
    (derived : ProgramOf tokens program) (context : Context) (events : Array Event) :
    ∃ after, Reader.program context ⟨tokens, [], events⟩ = .ok program after := by
  cases derived with
  | program gap clauseTokens tokens clause body functions breaks imported ends derived =>
      obtain ⟨token, rest, rfl, notBreak⟩ := import_front imported
      obtain ⟨laterEvents, run⟩ := derives_completes derived tokens.length tokens.length []
        (Nat.le_refl _) (Nat.le_refl _) (by simp [ListEnds])
        ⟨context.trail ++ ["program"], context.size, context.lastLine⟩ [] events rfl
      have ended : lineEnd ⟨context.trail ++ ["program"], context.size, context.lastLine⟩
          ⟨tokens, [], events⟩ = .ok () ⟨tokens, [], events⟩ :=
        lineEnd_ok_iff.mpr ⟨rfl, fun token member => .inl (ends token member)⟩
      simp only [List.append_nil, List.nil_append] at run
      refine ⟨⟨[], functions, laterEvents⟩, ?_⟩
      simp only [Reader.program, production_apply, Reader.statements]
      rw [bind_of_ok skipNewlines_apply]
      dsimp only
      rw [dropWhile_breaks breaks (by simpa using notBreak),
        bind_of_ok (importClause_takes imported tokens _ _ _), bind_of_ok ended,
        bind_of_ok unread_apply, bind_assoc, bind_of_ok unread_apply, bind_of_ok run,
        bind_of_ok currentKind_apply]
      rfl

/-- A run of the parse succeeds exactly on the token lists that stand for a program,
    whatever was reported before it. -/
theorem parse_run_iff (tokens : List Token) (events : Array Event) (program : Program) :
    (∃ after, Program.parse tokens events = .ok program after) ↔ ProgramOf tokens program := by
  simp only [Program.parse]
  constructor
  · rintro ⟨after, run⟩
    split at run
    · cases run
    · rename_i result state read
      cases run
      exact program_reads _ tokens events program state read
  · intro derived
    obtain ⟨state, read⟩ := program_completes derived
      ⟨["parse"], tokens.length, Token.lastLine tokens⟩ events
    rw [read]
    exact ⟨_, rfl⟩

/-- Parsing gives exactly the program that the token list stands for, and it fails
    exactly on the lists that stand for none.

    Soundness follows a successful run through the productions, completeness
    follows the derivation. No token list stands for two programs, since both
    would be the outcome of the same parse. -/
theorem parse_exact (tokens : List Token) :
    (∀ program, (Program.parse tokens).outcome = .ok program ↔ ProgramOf tokens program) ∧
      ∀ program other, ProgramOf tokens program → ProgramOf tokens other → program = other := by
  have exact : ∀ program,
      (Program.parse tokens).outcome = .ok program ↔ ProgramOf tokens program := by
    intro program
    rw [Traced.outcome_ok_iff, parse_run_iff]
  refine ⟨exact, ?_⟩
  intro program other derived otherDerived
  have same := ((exact program).mpr derived).symm.trans ((exact other).mpr otherDerived)
  exact Except.ok.inj same

/-- A definition inside the branch of a chain, with a line break before `else`: the
    tokens derive the program with the function hoisted, and no other. -/
theorem parse_exact_chain :
    let word (kind : Kind) (lexeme : String) (line : Nat) : Token := ⟨kind, lexeme, line⟩
    let call (line : Nat) : List Token :=
      [word .print "print" line, word .leftParen "(" line, word .intLiteral "1" line,
        word .rightParen ")" line, .newline line]
    let tokens : List Token :=
      [word .importWord "import" 1, word .identifier "GoType" 1, .newline 1,
        word .ifWord "if" 2, word .boolLiteral "True" 2, word .colon ":" 2, .newline 2,
        word .defWord "def" 3, word .identifier "f" 3, word .leftParen "(" 3,
        word .rightParen ")" 3, word .colon ":" 3, .newline 3] ++ call 4 ++
      [.closeBlock 6, .closeBlock 6, .newline 5, word .elseWord "else" 6, word .colon ":" 6,
        .newline 6] ++ call 7 ++ [.closeBlock 7]
    let printed (line : Nat) : Statement :=
      .call (word .print "print" line) [.terminal (word .intLiteral "1" line)]
    let program : Program :=
      ⟨⟨word .identifier "GoType" 1, none, 1⟩,
        [.ifChain [⟨word .ifWord "if" 2, ⟨⟨word .boolLiteral "True" 2, none⟩, none⟩,
          ⟨2, [.hoisted 0 3]⟩⟩] (some ⟨6, [printed 7]⟩)],
        [⟨word .defWord "def" 3, word .identifier "f" 3, [], none, ⟨3, [printed 4]⟩⟩]⟩
    ProgramOf tokens program ∧ ∀ other, ProgramOf tokens other → other = program := by
  intro word call tokens printed program
  have derived : ProgramOf tokens program :=
    ((parse_exact tokens).1 program).mp (by cbv)
  exact ⟨derived, fun other otherDerived => (parse_exact tokens).2 other program otherDerived derived⟩

end Offside.Grammar
