import Offside.Proofs.Syntax.Congruence
import Offside.Proofs.Syntax.Soundness

/-!
# Parsing without going back

The grammar tries the value of a declaration as a call, and looks past line breaks for the
continuation of a chain. Both attempts can be foreseen. An attempt at a call fails unless a
callee and an opening parenthesis come next, and it neither defines a function nor leaves the
productions that it was made in. Line breaks that are not taken up again would only have been
skipped by whoever reads on.

So the parser that never goes back reads the same programs, and rejects with the same
diagnostic. The two are run side by side on one token list, where every token stands for
itself. What differs on the way is which line breaks are still unread, and the reports.
-/

namespace Offside

open Grammar

/-- Everything stands for itself. -/
def Matching.exact : Matching where
  token := Eq
  line := Eq
  same_kind := fun same => congrArg Token.kind same
  same_lexeme := fun same => congrArg Token.lexeme same
  same_line := fun same => congrArg Token.line same

/-! ## Trees with the same leaves -/

/-- Options that are related by equality are equal, which is needed for tails, items and results. -/
theorem option_eq_of_rel {α : Type} {first second : Option α} (same : Option.Rel Eq first second) :
    first = second := by
  cases same with
  | none => rfl
  | some same => rw [same]

/-- Expressions whose leaves are equal are equal, as nothing but leaves is in them. -/
theorem Expression.Related.eq {expression other : Expression}
    (same : expression.Related Eq other) : expression = other := by
  obtain ⟨left, tail⟩ := expression
  obtain ⟨_, otherTail⟩ := other
  obtain ⟨rfl, tails⟩ := same
  cases tails with
  | none => rfl
  | some pair =>
      obtain ⟨operators, rights⟩ := pair
      rw [Prod.ext operators rights]

/-- Conditions whose leaves are equal are equal, since the expressions on both sides are. -/
theorem Comparison.Related.eq {comparison other : Comparison}
    (same : comparison.Related Eq other) : comparison = other := by
  obtain ⟨left, tail⟩ := comparison
  obtain ⟨_, otherTail⟩ := other
  obtain ⟨lefts, tails⟩ := same
  obtain rfl := lefts.eq
  cases tails with
  | none => rfl
  | some pair =>
      obtain ⟨operators, rights⟩ := pair
      rw [Prod.ext operators rights.eq]

mutual

/-- Values whose leaves are equal are equal. The recursion goes through the arguments of calls. -/
theorem Value.Related.eq {value other : Value} : value.Related Eq other → value = other
  | .terminal same => congrArg Value.terminal same
  | .call same inside => congrArg₂ Value.call same (Value.Related.eq_all inside)

/-- Lists of values whose leaves are equal are equal, one by one. -/
theorem Value.Related.eq_all {values others : List Value} :
    List.Forall₂ (Value.Related Eq) values others → values = others
  | .nil => rfl
  | .cons first later => congrArg₂ List.cons first.eq (Value.Related.eq_all later)

end

/-- Phrases that match with everything standing for itself are equal, by induction on how they
    match. -/
theorem Grammar.Phrase.Related.eq {phrase other : Phrase}
    (same : phrase.Matches .exact other) : phrase = other := by
  induction same with
  | block lines _ ih =>
      cases lines
      cases ih
      rfl
  | chainEnd => rfl
  | otherwise _ ih =>
      cases ih
      rfl
  | branch word compared _ _ bodies later =>
      cases word
      cases compared.eq
      cases bodies
      cases later
      rfl
  | forRange word name low high _ ih =>
      cases word
      cases name
      cases low
      cases high
      cases ih
      rfl
  | whileLoop word compared _ ih =>
      cases word
      cases compared.eq
      cases ih
      rfl
  | ifChain _ ih =>
      cases ih
      rfl
  | declaration named typed initial =>
      cases named
      cases typed
      cases initial.eq
      rfl
  | manipulation named assigned =>
      cases named
      cases assigned.eq
      rfl
  | call called =>
      cases called.eq
      rfl
  | returnValue word returned =>
      cases word
      cases returned
      rfl
  | hoisted numbers =>
      obtain ⟨rfl, rfl⟩ := numbers
      rfl
  | nil => rfl
  | cons _ _ first later =>
      cases first
      cases later
      rfl

/-- Definitions that match in this way are equal, their headers as well as their bodies. -/
theorem Definition.Related.eq {definition other : Definition}
    (same : definition.Matches .exact other) : definition = other := by
  obtain ⟨keyword, name, parameters, returns, body⟩ := definition
  obtain ⟨_, _, otherParameters, otherReturns, otherBody⟩ := other
  obtain ⟨rfl, rfl, inside, results, bodies⟩ := same
  have parametersSame : parameters = otherParameters :=
    List.forall₂_eq_eq_eq ▸ inside.imp fun first second same => by
      obtain ⟨_, _⟩ := first
      obtain ⟨_, _⟩ := second
      obtain ⟨rfl, rfl⟩ := same
      rfl
  obtain rfl := parametersSame
  obtain rfl := option_eq_of_rel results
  cases Phrase.Related.eq bodies
  rfl

/-- Programs that match in this way are equal, with their import clauses. -/
theorem Reader.ProgramAlike.eq {program other : Program}
    (same : ProgramAlike .exact program other) : program = other := by
  obtain ⟨⟨module, item, line⟩, body, functions⟩ := program
  obtain ⟨⟨_, otherItem, _⟩, otherBody, otherFunctions⟩ := other
  obtain ⟨⟨rfl, items, rfl⟩, bodies, definitions⟩ := same
  obtain rfl := option_eq_of_rel items
  cases Phrase.Related.eq bodies
  have functionsSame : functions = otherFunctions :=
    List.forall₂_eq_eq_eq ▸ definitions.imp fun _ _ same => same.eq
  rw [functionsSame]

namespace Reader

/-- Failures that are blamed alike in this way are equal, for the lines on both sides are. -/
theorem BlamedAlike.eq {trail : List String} {failure other : Failure}
    (same : BlamedAlike .exact trail failure other) : failure = other := by
  obtain ⟨inner, line, otherLine, fault, rfl, rfl, -, lines, -⟩ := same
  obtain rfl : line = otherLine := lines
  rfl

/-! ## An attempt at a call -/

/-- Every call starts with a callee and an opening parenthesis, and this is all that looking ahead
    asks for. -/
theorem startsCall_of_argument {tokens : List Token} {callee : Token} {arguments : List Value}
    (derived : ArgumentOf tokens (.call callee arguments)) (rest : List Token) :
    startsCall (tokens ++ rest) = true := by
  cases derived with
  | call callee left right parts inner isCallee opens closes listed derived =>
      have known := (mem_callees_iff callee).mpr isCallee
      simp [startsCall, known, opens]

/-- Without a callee and an opening parenthesis the attempt at a call fails. It has not defined
    a function by then, not even where it has read a callee. -/
theorem call_abandoned {state : State} (noCall : startsCall state.rest = false)
    (context : Context) :
    ∃ failure after, call context state = .error failure after ∧
      after.functions = state.functions := by
  have nothing : DefinesNothing call :=
    definesNothing_bind definesNothing_unread fun unread => definesNothing_callWithin unread.length
  have kept := nothing context state
  cases run : call context state with
  | ok called after =>
      obtain ⟨tokens, derived, isRest⟩ := call_reads _ _ _ _ run
      rw [isRest, startsCall_of_argument derived] at noCall
      cases noCall
  | error failure after =>
      rw [run] at kept
      exact ⟨failure, after, rfl, kept⟩

/-- After the attempt a literal is read from the same tokens, inside the same productions and
    with the same functions. -/
theorem initialValue_literal {state : State} (noCall : startsCall state.rest = false)
    (context : Context) :
    ∃ events, initialValue context state =
      (Value.terminal <$> expectAny literals) context ⟨state.rest, state.functions, events⟩ := by
  obtain ⟨failure, after, run, kept⟩ := call_abandoned noCall context
  have attempt : calledValue context state = .error failure after := by
    rw [calledValue, bind_of_error run]
  obtain ⟨events, again⟩ := literalAfter_false state.rest failure context after
  rw [initialValue_eq, bind_of_ok atCall_apply, bind_of_ok unread_apply, tryCatch_apply, attempt,
    noCall, ← kept]
  exact ⟨events, again⟩

/-- What looks like a call is read as one, and its failure is the failure of the value. -/
theorem initialValue_called {state : State} (shaped : startsCall state.rest = true)
    (context : Context) : initialValue context state = calledValue context state := by
  rw [initialValue_eq, bind_of_ok atCall_apply, bind_of_ok unread_apply, tryCatch_apply, shaped]
  cases calledValue context state with
  | ok value after => rfl
  | error failure after => rfl

/-! ## The two parsers -/

variable {matching : Matching} {room otherRoom : Nat}

/-- Trying a call and going back agrees with looking ahead for one. Where no call is foreseen, the
    attempt fails, and the failure is taken back. -/
theorem initialValue_predicted :
    Agree matching (Abreast matching matching.Stretched room otherRoom) initialValue
      Strategy.foreseenValue (Value.Matches matching)
      (Abreast matching matching.Stretched (room - 1) (otherRoom - 1)) := by
  intro context otherContext state otherState trails lines before
  have shapes := Stretched.startsCall before.rest
  have other : Strategy.foreseenValue otherContext otherState =
      (if startsCall otherState.rest = true then calledValue
        else Value.terminal <$> expectAny literals) otherContext otherState := by
    rw [Strategy.foreseenValue, bind_of_ok atCall_apply, map_eq_pure_bind]
    rfl
  rw [other]
  cases shaped : startsCall state.rest with
  | true =>
      rw [shaped] at shapes
      rw [initialValue_called shaped, if_pos shapes.symm]
      have called : Agree matching (Abreast matching matching.Stretched room otherRoom)
          calledValue calledValue (Value.Matches matching)
          (Abreast matching matching.Stretched (room - 1) (otherRoom - 1)) :=
        agree_bind call_agrees fun call otherCall calls => agree_pure calls
      exact called _ _ _ _ trails lines before
  | false =>
      rw [shaped] at shapes
      obtain ⟨events, literal⟩ := initialValue_literal shaped context
      have noCall : ¬ startsCall otherState.rest = true := by simp [← shapes]
      have read : Agree matching (Abreast matching matching.Stretched room otherRoom)
          (Value.terminal <$> expectAny literals) (Value.terminal <$> expectAny literals)
          (Value.Matches matching)
          (Abreast matching matching.Stretched (room - 1) (otherRoom - 1)) := by
        rw [map_eq_pure_bind]
        exact agree_bind (agree_expectAny (by decide)) fun token other matched =>
          agree_pure (.terminal matched)
      rw [literal, if_neg noCall]
      exact read _ _ _ _ trails lines { before with }

/-- Going back agrees with looking ahead in both decisions that the grammar leaves open. -/
theorem predictive_agrees : Strategy.Agree matching .backtracking .predictive where
  initialValue := initialValue_predicted
  endChain := by
    intro tokens others room otherRoom stretched within otherWithin context otherContext state
      otherState trails lines before
    obtain ⟨event, run⟩ := rewind_apply tokens context state
    have loose : matching.Loose tokens otherState.rest := by
      rw [Matching.Loose, before.otherRest]
      exact stretched.loose
    have started : Abreast matching matching.Loose room otherRoom
        { state with rest := tokens, events := state.events.push event } otherState :=
      { rest := loose
        defined := before.defined
        within := within
        otherWithin := Nat.lt_of_le_of_lt before.otherWithin otherWithin }
    change Results _ _ _ _ (rewind tokens context state) _
    rw [run]
    exact .ok trivial started

end Reader

/-- Read a whole token list as a program without going back. -/
def Program.predict (tokens : List Token) : Except Failure Program :=
  match Reader.Strategy.predictive.program ⟨["parse"], tokens.length, Token.lastLine tokens⟩
      ⟨tokens, [], #[]⟩ with
  | .ok program _ => .ok program
  | .error failure _ => .error failure

/-- Parsing gives the program or the failure that it gives without going back. Where no callee
    and opening parenthesis come next, the attempt to read the value of a declaration as a call
    fails and leaves the functions as they were, and the value is the literal that stands there,
    read inside the same productions with the same functions. -/
theorem parse_eq_predict (tokens : List Token) :
    (Program.parse tokens).outcome = Program.predict tokens ∧
      ∀ (context : Reader.Context) (state : Reader.State), Reader.startsCall state.rest = false →
        (∃ failure after, Reader.call context state = .error failure after ∧
          after.functions = state.functions) ∧
        ∃ events, Reader.initialValue context state =
          (Value.terminal <$> Reader.expectAny Reader.literals) context
            ⟨state.rest, state.functions, events⟩ := by
  constructor
  · have self : Matching.exact.Loose tokens tokens :=
      (Matching.stretched_self (fun _ _ _ => rfl) fun _ _ => rfl).loose
    have results := Reader.program_results Reader.predictive_agrees self rfl #[] #[]
    rw [Reader.Strategy.backtracking_program] at results
    simp only [Traced.outcome, EStateM.run, Program.parse, Program.predict]
    generalize Reader.program _ _ = outcome at results
    generalize Reader.Strategy.program _ _ _ = otherOutcome at results
    cases results with
    | ok values states => exact congrArg Except.ok values.eq
    | error failures defined => exact congrArg Except.error failures.eq
  · intro context state noCall
    exact ⟨Reader.call_abandoned noCall context, Reader.initialValue_literal noCall context⟩

/-- A program that is accepted although the parser goes back twice. The literal is read after an
    attempt at a call, in front of which the cursor is set back, and two line breaks after the
    chain are given back. Without going back the same program is read. -/
theorem parse_eq_predict_accepted :
    let word (kind : Kind) (lexeme : String) (line : Nat) : Token := ⟨kind, lexeme, line⟩
    let name (line : Nat) : Token := word .identifier "x" line
    let printed : Token := word .print "print" 4
    let tokens : List Token :=
      [word .importWord "import" 1, word .identifier "GoType" 1, .newline 1,
        name 2, word .colon ":" 2, word .identifier "int" 2, word .assign "=" 2,
        word .intLiteral "1" 2, .newline 2,
        word .ifWord "if" 3, name 3, word .colon ":" 3, .newline 3,
        printed, word .leftParen "(" 4, word .rightParen ")" 4, .newline 4, .closeBlock 4,
        .newline 5, .newline 6, name 7, word .assign "=" 7, word .intLiteral "2" 7]
    let program : Program :=
      ⟨⟨word .identifier "GoType" 1, none, 1⟩,
        [.declaration (name 2) (word .identifier "int" 2) (.terminal (word .intLiteral "1" 2)),
          .ifChain [⟨word .ifWord "if" 3, ⟨⟨name 3, none⟩, none⟩, ⟨3, [.call printed []]⟩⟩] none,
          .manipulation (name 7) ⟨word .intLiteral "2" 7, none⟩], []⟩
    let abandoned : Failure :=
      .parse ⟨["parse", "program", "statement", "declaration", "call"], 2,
        "expected identifier or `print`, got `1`"⟩
    let context : Reader.Context := ⟨["parse", "program", "statement", "declaration"], 23, 7⟩
    let state : Reader.State := ⟨tokens.drop 7, [], #[]⟩
    Program.parse tokens #[] =
        .ok program #[.notACall abandoned, .rewound 7 7, .rewound 20 18, .parsed 3 0] ∧
      Program.predict tokens = .ok program ∧
      Reader.startsCall state.rest = false ∧
      (∃ failure after, Reader.call context state = .error failure after ∧
        after.functions = []) ∧
      ∃ events, Reader.initialValue context state =
        (Value.terminal <$> Reader.expectAny Reader.literals) context
          ⟨state.rest, [], events⟩ := by
  intro word name printed tokens program abandoned context state
  have run : Program.parse tokens #[] =
      .ok program #[.notACall abandoned, .rewound 7 7, .rewound 20 18, .parsed 3 0] := rfl
  have noCall : Reader.startsCall state.rest = false := rfl
  clear_value program abandoned
  obtain ⟨same, literal⟩ := parse_eq_predict tokens
  have outcome : (Program.parse tokens).outcome = .ok program :=
    (Traced.outcome_ok_iff _ _).mpr ⟨_, run⟩
  exact ⟨run, same.symm.trans outcome, noCall, literal context state noCall⟩

end Offside
