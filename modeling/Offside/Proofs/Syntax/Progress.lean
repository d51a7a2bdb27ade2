import Mathlib
import Offside.Proofs.Syntax.Movement

/-!
# The cursor moves on

The parser on a cursor reads what readers read. Whatever succeeds has moved the cursor forward, if
only by one token, even where it was set back on the way: a chain has read its first branch when
it goes back over line breaks, and the literal of a declaration stands where a call was tried. So
fuel for more rounds than there are tokens never runs out. A token is taken only where one was
seen. Every production leaves the trail as it was, whether or not it succeeds, and what has been
hoisted stays.
-/

namespace Offside

namespace Parsing

open Offside.Parser

variable {α : Type} {limit most fuel bound : Nat} {parser middle : Parser}

/-! ## Lists of items -/

variable {item : Parsing α} {readItem : Reader α}

/-- A round over a list reads an item, and a comma if one comes next. The item alone moves the
    cursor. -/
theorem listRound_reads (items : Reads limit (fun _ => 1) item readItem) :
    Reads limit (fun _ => 1) (listRound item) (Reader.listRound readItem) := by
  refine items.bind fun value _ => ?_
  exact (reads_advanceIf _).bind fun more _ => reads_pure (by simp)

/-- Items with commas between them are read alike. The induction is on the fuel, and fuel and bound
    both exceed what is left, as each round moves on. -/
theorem separated_reads (items : Reads most (fun _ => 1) item readItem) (limits : limit ≤ most)
    (enough : limit < fuel) (bounded : limit ≤ bound) :
    Reads limit (fun _ => 1) (separated item fuel) (Reader.separatedWithin readItem bound) := by
  induction fuel generalizing limit bound with
  | zero => omega
  | succ fuel ih =>
      have first := items.below limits
      rw [separated]
      cases bound with
      | zero =>
          -- an item needs a token, and there is none
          rw [listRound, bind_assoc]
          exact first.bind fun _ within => absurd within (by omega)
      | succ bound =>
          rw [Reader.separatedWithin_succ]
          refine (listRound_reads first).bind fun round within => ?_
          obtain ⟨value, more⟩ := round
          cases more with
          | true =>
              have later : Reads (limit - 1) (fun _ => 1) (separated item fuel)
                  (Reader.separatedWithin readItem bound) :=
                ih (by omega) (by omega) (by omega)
              exact later.bind fun _ _ => reads_pure rfl
          | false => exact reads_pure rfl

/-- Items in parentheses are read alike, with fuel for as many as there are tokens behind the
    opening one. -/
theorem parenthesized_reads (items : Reads limit (fun _ => 1) item readItem)
    (enough : limit ≤ fuel) :
    Reads limit (fun _ => 1) (parenthesized item fuel) (Reader.parenthesized readItem) := by
  refine (reads_expect _).bind fun _ within => reads_currentKind fun kind => ?_
  have close (list : List α) : Reads (limit - 1) (fun _ => 0)
      (do let _ ← expect .rightParen; return list)
      (do let _ ← Reader.expect .rightParen; return list) :=
    (reads_expect _).bind fun _ _ => reads_pure rfl
  split
  · have nothing : Reads (limit - 1) (fun _ => 0) (pure []) (pure ([] : List α)) := reads_pure rfl
    exact (nothing.bind fun list _ => close list).at kind
  · have list : Reads (limit - 1) (fun _ => 0) (separated item fuel)
        (Reader.separated readItem) := by
      refine reads_unread fun rest left => ?_
      exact (separated_reads items (by omega) (by omega) (Nat.le_refl _)).anyway
    exact (list.bind fun list _ => close list).at kind

/-! ## Expressions and calls -/

/-- An expression is read alike, and it has at least one operand. -/
theorem expression_reads :
    Reads limit (fun _ => 1) expression Reader.expression := by
  refine Reads.within ((reads_expectAny _).bind fun left _ => ?_) _
  refine (reads_takeIf? _).bind fun taken _ => ?_
  cases taken with
  | some operator => exact (reads_expectAny _).bind fun _ _ => reads_pure rfl
  | none => exact reads_pure rfl

/-- A condition is read alike, and it has at least one expression. -/
theorem comparison_reads :
    Reads limit (fun _ => 1) comparison Reader.comparison := by
  refine Reads.within (expression_reads.bind fun left _ => ?_) _
  refine (reads_takeIf? _).bind fun taken _ => ?_
  cases taken with
  | some comparator => exact expression_reads.bind fun _ _ => reads_pure rfl
  | none => exact reads_pure rfl

/-- An argument is read alike if the calls in it are. An operand in its place is one token. -/
theorem argument_reads {call : Parsing (Token × List Value)}
    (calls : Reads limit (fun _ => 1) call (Reader.callWithin bound)) :
    Reads limit (fun _ => 1) (argument call) (Reader.argumentWithin bound) := by
  refine reads_atCall.bind fun shaped _ => ?_
  cases shaped with
  | true => exact calls.bind fun _ _ => reads_pure rfl
  | false => exact (reads_expectAny _).bind fun _ _ => reads_pure rfl

/-- Calls inside one another are read alike with one unit of fuel for each. The induction is on the
    fuel, and the arguments of a call have fewer tokens than the call. -/
theorem callWithin_reads (enough : limit < fuel) (bounded : limit ≤ bound) :
    Reads limit (fun _ => 1) (call fuel) (Reader.callWithin bound) := by
  induction fuel generalizing limit bound with
  | zero => omega
  | succ fuel ih =>
      refine Reads.bounded Reader.callWithin_at_end (fun bound bounded => ?_) bounded
      rw [call, Reader.callWithin_succ]
      refine Reads.within ((reads_expectAny _).bind fun callee within => ?_) _
      -- the callee is a token, so the fuel that is left is enough for calls inside
      have arguments : Reads (limit - 1) (fun _ => 1) (argument (call fuel))
          (Reader.argumentWithin bound) :=
        argument_reads (ih (by omega) (by omega))
      exact (parenthesized_reads arguments (by omega)).bind fun _ _ => reads_pure rfl

/-- A call is read alike with more fuel than tokens are left. -/
theorem call_reads (enough : limit < fuel) :
    Reads limit (fun _ => 1) (call fuel) Reader.call :=
  reads_unread fun _ _ => callWithin_reads (by omega) (Nat.le_refl _)

/-- The literal starts where a call was tried, so it moves the cursor on from there. A failure that
    is not taken back is the same on both sides. -/
theorem literalAfter_ends (shaped : Bool) (failure : Failure) (ready : parser.Ready limit)
    (kept : parser.Kept middle) :
    Ends parser (fun _ => 1) (literalAfter shaped parser.position failure middle)
      (Reader.literalAfter shaped parser.state.rest failure middle.context middle.state) := by
  cases shaped with
  | true => exact .error kept
  | false =>
      let told : Parser := { middle with events := middle.events.push (.notACall failure) }
      have reported : parser.Kept told :=
        ⟨kept.tokens, kept.trail, kept.inside, kept.functions, kept.mishaps⟩
      obtain ⟨run, back⟩ := rewind_alike ready.inside reported
      have literal : Reads limit (fun _ => 1)
          (do return Value.terminal (← expectAny Reader.literals))
          (do return Value.terminal (← Reader.expectAny Reader.literals)) :=
        (reads_expectAny _).bind fun _ _ => reads_pure rfl
      have left : (told.rewound parser.position).unread ≤ limit := by
        have within := ready.within
        unfold unread at within ⊢
        rw [back.tokens]
        exact within
      have start : parser.position + 0 ≤ (told.rewound parser.position).position := Nat.le_refl _
      have reread : Reader.literalAfter false parser.state.rest failure middle.context
          middle.state = (Reader.rewind parser.state.rest >>= fun _ => do
            return Value.terminal (← Reader.expectAny Reader.literals)) told.context told.state :=
        rfl
      rw [reread, Reader.bind_of_ok run]
      exact .after back start (literal _ ⟨back.inside, left⟩)

/-- The value of a declaration is read alike, as a call or, after going back, as a literal. -/
theorem initialValue_reads (enough : limit < fuel) :
    Reads limit (fun _ => 1) (initialValue fuel) Reader.initialValue := by
  refine reads_atCall.bind fun shaped _ => ?_
  refine Reads.rescue ((call_reads enough).bind fun _ _ => reads_pure rfl) ?_
  exact fun parser middle failure ready kept => literalAfter_ends shaped failure ready kept

/-! ## Simple statements -/

/-- A declaration is read alike, its value included, which is a call or a literal. -/
theorem declaration_reads (enough : limit < fuel) :
    Reads limit (fun _ => 1) (declaration fuel) Reader.declaration := by
  refine Reads.within ((reads_expect _).bind fun name _ => ?_) _
  refine (reads_expect _).bind fun _ _ => ?_
  refine (reads_expect _).bind fun type _ => ?_
  refine (reads_expect _).bind fun _ _ => ?_
  exact (initialValue_reads (by omega)).bind fun value _ => reads_pure rfl

/-- An assignment is read alike: a name, the sign, and an expression behind it. -/
theorem manipulation_reads :
    Reads limit (fun _ => 1) manipulation Reader.manipulation := by
  refine Reads.within ((reads_expect _).bind fun target _ => ?_) _
  refine (reads_expect _).bind fun _ _ => ?_
  exact expression_reads.bind fun value _ => reads_pure rfl

/-- A call that stands as a statement is read alike, with as much fuel as calls need. -/
theorem callStatement_reads (enough : limit < fuel) :
    Reads limit (fun _ => 1) (callStatement fuel) Reader.callStatement :=
  (call_reads enough).bind fun _ _ => reads_pure rfl

/-- A return statement is read alike, with the operand that it returns. -/
theorem returnValue_reads :
    Reads limit (fun _ => 1) returnValue Reader.returnValue := by
  refine Reads.within ((reads_expect _).bind fun keyword _ => ?_) _
  exact (reads_expectAny _).bind fun value _ => reads_pure rfl

/-- The end of a line is read alike. It is found by a look at the current token, so the cursor stays
    where it is. -/
theorem lineEnd_reads : Reads limit (fun _ => 0) lineEnd Reader.lineEnd := by
  refine reads_current.bind fun current _ => ?_
  cases current with
  | none => exact reads_pure rfl
  | some token =>
      dsimp only
      split
      · exact reads_pure rfl
      · exact reads_fail _

/-- A statement that starts with a name is read alike in each of its forms. A token that starts none
    of them has been passed before it is blamed. -/
theorem namedStatement_reads (enough : limit < fuel) :
    Reads limit (fun _ => 1) (namedStatement fuel) Reader.namedStatement := by
  refine reads_nextKind.bind fun kind _ => ?_
  have refused (kinds : List Kind) : Reads limit (fun _ => 1)
      (do advance; unexpected kinds : Parsing Statement)
      (do Reader.advance; Reader.unexpected kinds) :=
    reads_advance.bind fun _ _ => reads_unexpected kinds
  cases kind with
  | none => exact refused _
  | some kind =>
      cases kind
      case colon => exact declaration_reads enough
      case assign => exact manipulation_reads
      case leftParen => exact callStatement_reads enough
      all_goals exact refused _

/-- A parameter is read alike: a name, a colon, and the name of a type. -/
theorem parameter_reads :
    Reads limit (fun _ => 1) parameter Reader.parameter := by
  refine (reads_expect _).bind fun name _ => ?_
  refine (reads_expect _).bind fun _ _ => ?_
  exact (reads_expect _).bind fun type _ => reads_pure rfl

/-- A result type is read alike. It may be missing, so it need not move the cursor. -/
theorem resultType_reads : Reads limit (fun _ => 0) resultType Reader.resultType := by
  rw [resultType, Reader.resultType_eq]
  refine (reads_advanceIf _).bind fun passed _ => ?_
  cases passed with
  | true => exact (reads_expectAny _).bind fun type _ => reads_pure (Nat.zero_sub _)
  | false => exact reads_pure rfl

/-- A definition goes to the end of those that were met before it. -/
theorem hoist_reads (definition : Definition) :
    Reads limit (fun _ => 0) (hoist definition) (Reader.hoist definition) := by
  intro parser ready
  let after : Parser := { parser with
    functions := parser.functions ++ [definition]
    events := parser.events.push (.hoisted definition.name.lexeme parser.functions.length) }
  have kept : parser.Kept after :=
    ⟨rfl, rfl, ready.inside, List.prefix_append _ _, rfl⟩
  exact .ok kept (Nat.le_refl _)

/-! ## Compound statements -/

section Compound

variable {block : Parsing (Block Statement)} {readBlock : Reader (Block Statement)}
  (blocks : Reads limit (fun _ => 1) block readBlock)

include blocks

/-- A loop over a range is read alike if its block is. -/
theorem forRange_reads :
    Reads limit (fun _ => 1) (forRange block) (Reader.forRange readBlock) := by
  refine Reads.within ((reads_expect _).bind fun keyword _ => ?_) _
  refine (reads_expect _).bind fun counter _ => ?_
  refine (reads_expect _).bind fun _ _ => ?_
  refine (reads_expect _).bind fun _ _ => ?_
  refine (reads_expect _).bind fun _ _ => ?_
  refine (reads_expectAny _).bind fun start _ => ?_
  refine (reads_expect _).bind fun _ _ => ?_
  refine (reads_expectAny _).bind fun stop _ => ?_
  refine (reads_expect _).bind fun _ _ => ?_
  exact (blocks.below (by omega)).bind fun body _ => reads_pure rfl

/-- A loop with a condition is read alike if its block is. -/
theorem whileLoop_reads :
    Reads limit (fun _ => 1) (whileLoop block) (Reader.whileLoop readBlock) := by
  refine Reads.within ((reads_expect _).bind fun keyword _ => ?_) _
  refine comparison_reads.bind fun condition _ => ?_
  exact (blocks.below (by omega)).bind fun body _ => reads_pure rfl

/-- A branch is read alike if its block is, whichever word it starts with. -/
theorem branch_reads (word : Kind) :
    Reads limit (fun _ => 1) (branch block word) (Reader.branch readBlock word) := by
  refine (reads_expect _).bind fun keyword _ => ?_
  refine comparison_reads.bind fun condition _ => ?_
  exact (blocks.below (by omega)).bind fun body _ => reads_pure rfl

/-- A round that finds no continuation goes back over the line breaks. Any other one moves on. -/
theorem chainRound_reads (enough : limit < fuel) :
    Reads limit (fun round => if round.isSome then 1 else 0) (chainRound block fuel)
      (Reader.chainRound readBlock) := by
  refine Reads.probe (reads_skipNewlines enough) fun parser middle ready there kept ahead =>
    .currentKind fun kind facing => ?_
  have back : Ends parser (fun round => if round.isSome then 1 else 0)
      ((do rewind parser.position; return none : Parsing (Option ChainLink)) middle)
      ((do Reader.rewind parser.state.rest; return none : Reader _) middle.context
        middle.state) := by
    obtain ⟨run, rewound⟩ := rewind_alike ready.inside kept
    rw [Reader.bind_of_ok run]
    exact .ok rewound (Nat.le_refl _)
  cases kind with
  | none => exact back
  | some kind =>
      cases kind
      case elifWord =>
        have next : Reads limit (fun round : Option ChainLink => if round.isSome then 1 else 0)
            (do return some (.inl (← branch block .elifWord)))
            (do return some (.inl (← Reader.branch readBlock .elifWord))) :=
          (branch_reads blocks _).bind fun _ _ => reads_pure rfl
        exact .after kept ahead (next middle there)
      case elseWord =>
        have otherwise : ReadsAt (some .elseWord) limit
            (fun round : Option ChainLink => if round.isSome then 1 else 0)
            (do advance; return some (.inr (← block)))
            (do Reader.advance; return some (.inr (← readBlock))) :=
          (readsAt_advance _).bind fun _ within =>
            (blocks.below (Nat.sub_le limit 1)).bind fun _ _ => reads_pure rfl
        exact .after kept ahead (otherwise middle there facing)
      all_goals exact back

/-- What continues a chain is read alike, round by round. The induction is on the fuel, and a round
    that goes back over line breaks is the last one. -/
theorem continuation_reads (enough : limit < fuel) (bounded : limit ≤ bound) :
    Reads limit (fun _ => 0) (continuation block fuel) (Reader.continuation readBlock bound) := by
  induction fuel generalizing limit bound with
  | zero => omega
  | succ fuel ih =>
      refine Reads.bounded (Reader.continuation_ended readBlock) (fun bound bounded => ?_) bounded
      rw [continuation, Reader.continuation_succ]
      refine (chainRound_reads blocks enough).bind fun round within => ?_
      rcases round with _ | next | body
      · exact reads_pure rfl
      · -- a branch was read, so there are fewer tokens for the next round
        have left : 1 ≤ limit := within
        have later := ih (blocks.below (Nat.sub_le limit 1)) (by omega)
          (by omega : limit - 1 ≤ bound)
        exact later.bind fun _ _ => reads_pure rfl
      · exact reads_pure rfl

/-- A chain is read alike. Its first branch has moved the cursor on before the line breaks that it
    may go back over. -/
theorem ifChain_reads (enough : limit < fuel) :
    Reads limit (fun _ => 1) (ifChain block fuel) (Reader.ifChain readBlock) := by
  refine Reads.within ((branch_reads blocks _).bind fun first within => ?_) _
  refine reads_unread fun rest left => ?_
  have fewer := blocks.below (by omega : rest.length ≤ limit)
  exact (continuation_reads fewer (by omega) (Nat.le_refl _)).bind fun later _ => reads_pure rfl

/-- A definition is read alike if its block is, and both sides add it behind the same
    definitions. -/
theorem definition_reads (enough : limit < fuel) :
    Reads limit (fun _ => 1) (definition block fuel) (Reader.definition readBlock) := by
  refine Reads.within ((reads_expect _).bind fun keyword _ => ?_) _
  refine (reads_expect _).bind fun name _ => ?_
  refine (parenthesized_reads parameter_reads (by omega)).bind fun parameters _ => ?_
  refine resultType_reads.bind fun returns _ => ?_
  refine (blocks.below (by omega)).bind fun body _ => ?_
  exact hoist_reads _

/-- A statement is read alike in all of its forms, if the blocks in it are. -/
theorem statement_reads (enough : limit < fuel) :
    Reads limit (fun _ => 1) (statement block fuel) (Reader.statement readBlock) := by
  refine Reads.within (reads_currentKind fun kind => Reads.at ?_ kind) _
  have refused : Reads limit (fun _ => 1)
      (do fail (.expectedStatement (← look current)) : Parsing Statement)
      (do Reader.fail (.expectedStatement (← Reader.current))) :=
    reads_current.bind fun _ _ => reads_fail _
  cases kind with
  | none => exact refused
  | some kind =>
      cases kind
      case forWord => exact forRange_reads blocks
      case whileWord => exact whileLoop_reads blocks
      case ifWord => exact ifChain_reads blocks enough
      case defWord => exact definition_reads blocks enough
      case returnWord => exact returnValue_reads
      case print => exact callStatement_reads enough
      case identifier => exact namedStatement_reads enough
      case importWord => exact reads_fail _
      case fromWord => exact reads_fail _
      all_goals exact refused

/-- A statement with the end of its line is read alike, for the same statements have to be followed
    by one. -/
theorem terminatedStatement_reads (enough : limit < fuel) :
    Reads limit (fun _ => 1) (terminatedStatement block fuel)
      (Reader.terminatedStatement readBlock) := by
  refine (statement_reads blocks enough).bind fun result _ => ?_
  cases result.endsWithBlock with
  | true => exact reads_pure rfl
  | false => exact lineEnd_reads.bind fun _ _ => reads_pure rfl

variable {close : Parsing Unit} {readClose : Reader Unit} {count : Nat}

/-- A round over statements reads alike: a statement, or what closes the list. Whichever it is moves
    the cursor by as much as is known of it. -/
theorem statementRound_reads (closes : Reads limit (fun _ => count) close readClose)
    (enough : limit < fuel) :
    Reads limit (fun round => if round.isSome then 1 else count)
      (statementRound block fuel close) (Reader.statementRound readBlock readClose) := by
  refine (reads_skipNewlines enough).bind fun _ _ => reads_currentKind fun kind => Reads.at ?_ kind
  have ended : Reads limit (fun round => if round.isSome then 1 else count)
      (do close; return none : Parsing (Option Statement)) (do readClose; return none) :=
    closes.bind fun _ _ => reads_pure (Nat.sub_self count)
  have goesOn : Reads limit (fun round => if round.isSome then 1 else count)
      (do return some (← terminatedStatement block fuel))
      (do return some (← Reader.terminatedStatement readBlock)) :=
    (terminatedStatement_reads blocks enough).bind fun _ _ => reads_pure rfl
  cases kind with
  | none => exact ended
  | some kind =>
      cases kind
      case closeBlock => exact ended
      all_goals exact goesOn

/-- The statements of a block or of a program are read alike, with what closes them. The induction
    is on the fuel, as every statement moves the cursor on. -/
theorem statements_reads {close : Bool → Parsing Unit} {readClose : Bool → Reader Unit}
    (closes : ∀ {limit} vacant, Reads limit (fun _ => 0) (close vacant) (readClose vacant))
    (enough : limit < fuel) (bounded : limit ≤ bound) (vacant : Bool) :
    Reads limit (fun _ => 0) (statements block close fuel vacant)
      (Reader.closedStatements readBlock bound readClose vacant) := by
  induction fuel generalizing limit bound vacant with
  | zero => omega
  | succ fuel ih =>
      have atEnd := Reader.closedStatements_ended readBlock readClose vacant
      refine Reads.bounded atEnd (fun bound bounded => ?_) bounded
      rw [statements, Reader.closedStatements_succ]
      refine (statementRound_reads blocks (closes vacant) enough).bind fun round within => ?_
      cases round with
      | none => exact reads_pure rfl
      | some first =>
          have left : 1 ≤ limit := within
          have later := ih (blocks.below (Nat.sub_le limit 1)) (by omega)
            (by omega : limit - 1 ≤ bound) false
          exact later.bind fun _ _ => reads_pure rfl

end Compound

/-! ## Blocks and programs -/

/-- A block ends with a token of its own, on both sides, and having had no statement is blamed on
    both. -/
theorem closeBlock_reads (vacant : Bool) :
    Reads limit (fun _ => 1) (closeBlock vacant) (Reader.closeBlock vacant) := by
  refine reads_currentKind fun kind => ?_
  have refused : ReadsAt kind limit (fun _ => 1) (fail .unterminatedBlock : Parsing Unit)
      (Reader.fail .unterminatedBlock) := (reads_fail _).at kind
  cases kind with
  | none => exact refused
  | some kind =>
      cases kind
      case closeBlock =>
        cases vacant with
        | true => exact (reads_fail _).vain.at _
        | false => exact readsAt_advance _
      all_goals exact refused

/-- Blocks inside one another are read alike with one unit of fuel for each. The induction is on the
    fuel, and the colon takes a token off what is left. -/
theorem blockWithin_reads (enough : limit < fuel) (bounded : limit ≤ bound) :
    Reads limit (fun _ => 1) (block fuel) (Reader.blockWithin bound) := by
  induction fuel generalizing limit bound with
  | zero => omega
  | succ fuel ih =>
      refine Reads.bounded Reader.blockWithin_ended (fun bound bounded => ?_) bounded
      rw [block, Reader.blockWithin_succ]
      refine Reads.within (reads_currentLine.bind fun line _ => ?_) _
      refine (reads_expect _).bind fun _ within => ?_
      refine (reads_expect _).bind fun _ _ => reads_unread fun rest left => ?_
      -- two tokens stand before the statements, one of which pays for the nesting
      have blocks : Reads rest.length (fun _ => 1) (block fuel) (Reader.blockWithin bound) :=
        ih (by omega) (by omega)
      have list := statements_reads blocks (fun vacant => (closeBlock_reads vacant).anyway)
        (by omega : _ < fuel) (Nat.le_refl _) true
      exact list.bind fun _ _ => reads_pure rfl

/-- An import clause has to name the runtime, on both sides, and it has been read when this is found
    out. -/
theorem runtime_reads (clause : ImportClause) :
    Reads limit (fun _ => 0)
      (do
        if clause.module.lexeme ≠ runtimeModule then failOn clause.module.line .missingImport
        return clause : Parsing ImportClause)
      (do
        if clause.module.lexeme ≠ runtimeModule then
          Reader.failOn clause.module.line .missingImport
        return clause) := by
  by_cases foreign : clause.module.lexeme ≠ runtimeModule
  · rw [if_pos foreign, if_pos foreign]
    exact (reads_failOn _ _).vain
  · rw [if_neg foreign, if_neg foreign]
    exact reads_pure rfl

/-- The import clause is read alike in both of its forms, and both have to name the runtime. -/
theorem importClause_reads :
    Reads limit (fun _ => 1) importClause Reader.importClause := by
  refine Reads.within (reads_currentLine.bind fun line _ => reads_currentKind fun kind => ?_) _
  have missing {limit : Nat} {next : ImportClause → Parsing ImportClause}
      {readNext : ImportClause → Reader ImportClause} :
      Reads limit (fun _ => 1) (fail .missingImport >>= next)
        (Reader.fail .missingImport >>= readNext) := (reads_fail _).vain
  cases kind with
  | none => exact missing.at _
  | some kind =>
      cases kind
      case importWord =>
        refine (readsAt_advance _).bind fun _ _ => ?_
        exact (reads_expect _).bind fun module _ => runtime_reads _
      case fromWord =>
        refine (readsAt_advance _).bind fun _ _ => ?_
        refine (reads_expect _).bind fun module _ => ?_
        refine (reads_expect _).bind fun _ _ => ?_
        exact (reads_expectAny _).bind fun item _ => runtime_reads _
      all_goals exact missing.at _

/-- The end of the input closes a program on both sides, and it is no token. -/
theorem closeProgram_reads : Reads limit (fun _ => 0) closeProgram Reader.closeProgram := by
  refine reads_currentKind fun kind => Reads.at ?_ kind
  cases kind with
  | none => exact reads_pure rfl
  | some kind => exact reads_fail _

/-- A round that finds no continuation of a chain ends where it has started. -/
theorem chainRound_none {block : Parsing (Block Statement)} {after : Parser}
    (run : chainRound block fuel parser = .ok none after) : after.position = parser.position := by
  obtain ⟨checkpoint, start, looked, run⟩ := bind_ok_iff.mp run
  cases looked
  obtain ⟨_, middle, _, run⟩ := bind_ok_iff.mp run
  obtain ⟨kind, there, _, run⟩ := bind_ok_iff.mp run
  have back (run : (do rewind parser.position; return none : Parsing (Option ChainLink)) there =
      .ok none after) : after.position = parser.position := by
    cases run
    rfl
  cases kind with
  | none => exact back run
  | some kind =>
      cases kind
      case elifWord =>
        obtain ⟨_, _, _, found⟩ := bind_ok_iff.mp run
        cases found
      case elseWord =>
        obtain ⟨_, _, _, run⟩ := bind_ok_iff.mp run
        obtain ⟨_, _, _, found⟩ := bind_ok_iff.mp run
        cases found
      all_goals exact back run

/-- A program is closed only where no token is left, so a cursor at its end has passed all of
    them. -/
theorem closeProgram_ok {after : Parser} (run : closeProgram parser = .ok () after) :
    after.current = none := by
  obtain ⟨kind, there, seen, run⟩ := bind_ok_iff.mp run
  cases kind with
  | none =>
      cases run
      rw [currentKind_apply] at seen
      injection seen with kind there
      rw [← there]
      exact Option.map_eq_none_iff.mp kind
  | some kind => cases run

/-- A round that finds no more statements of a program ends at the end of the input. -/
theorem programRound_none {block : Parsing (Block Statement)} {after : Parser}
    (run : statementRound block fuel closeProgram parser = .ok none after) :
    after.current = none := by
  obtain ⟨_, middle, _, run⟩ := bind_ok_iff.mp run
  obtain ⟨kind, there, _, run⟩ := bind_ok_iff.mp run
  have ended (run : (do closeProgram; return none : Parsing (Option Statement)) there =
      .ok none after) : after.current = none := by
    obtain ⟨_, last, closed, run⟩ := bind_ok_iff.mp run
    cases run
    exact closeProgram_ok closed
  cases kind with
  | none => exact ended run
  | some kind =>
      cases kind
      case closeBlock => exact ended run
      all_goals
        obtain ⟨_, _, _, found⟩ := bind_ok_iff.mp run
        cases found

/-- The import clause and the statements of a program are read alike, up to the end of the input. -/
theorem programParts_reads (enough : limit < fuel) :
    Reads limit (fun _ => 1) (programParts fuel) Reader.programParts := by
  refine (reads_skipNewlines enough).bind fun _ _ => ?_
  refine importClause_reads.bind fun clause _ => ?_
  refine lineEnd_reads.bind fun _ _ => ?_
  refine reads_unread fun nesting left => reads_unread fun rest fewer => ?_
  have blocks : Reads rest.length (fun _ => 1) (block fuel)
      (Reader.blockWithin nesting.length) := blockWithin_reads (by omega) fewer
  have statements := statements_reads blocks (fun _ => closeProgram_reads) (by omega : _ < fuel)
    (Nat.le_refl _) true
  exact statements.bind fun body _ => reads_pure rfl

/-- A program is what its parts have become, with the definitions that were met. The parser has
    none of them any more. -/
theorem program_apply :
    program fuel parser =
      match programParts fuel (parser.within "program") with
      | .ok (clause, body) after =>
          .ok ⟨clause, body, after.functions⟩ { after.without with functions := [] }
      | .error failure after => .error failure after.without := by
  rw [program, within_apply, Traced.bind_apply]
  cases programParts fuel (parser.within "program") <;> rfl

/-- A whole program ends alike from anywhere with enough fuel: both succeed with one result, or both
    fail with one report. -/
theorem program_ends (ready : parser.Ready limit) (enough : limit < fuel) :
    match program fuel parser with
    | .ok program after =>
        Reader.program parser.context parser.state =
            .ok program { after.state with functions := program.functions } ∧
          parser.Kept { after with functions := program.functions } ∧
          parser.position < after.position ∧ after.functions = []
    | .error failure after =>
        Reader.program parser.context parser.state = .error failure after.state ∧
          parser.Kept after := by
  have ends := programParts_reads enough (parser.within "program") ⟨ready.inside, ready.within⟩
  rw [program_apply, Reader.program_eq, Reader.production_apply]
  change Ends _ _ _ (Reader.programParts
    { parser.context with trail := parser.context.trail ++ ["program"] } parser.state) at ends
  generalize programParts fuel (parser.within "program") = result at ends
  generalize run : Reader.programParts _ parser.state = outcome at ends
  cases ends with
  | ok kept ahead =>
      rw [Reader.bind_of_ok run]
      exact ⟨rfl, kept.outside, ahead, rfl⟩
  | error kept =>
      rw [Reader.bind_of_error run]
      exact ⟨rfl, kept.outside⟩

end Parsing

/-! ## All parts -/

/-- The parts of the parser: each production but the whole program, and the rounds of each loop. -/
inductive Parser.Part where
  | importClause
  | terminatedStatement
  | statement
  | block
  | forRange
  | whileLoop
  | ifChain
  | branch (word : Kind)
  | declaration
  | manipulation
  | call
  | argument
  | definition
  | returnValue
  | expression
  | comparison
  /-- A round over the statements of a program. -/
  | programRound
  /-- A round over the statements of a block, and whether it is the first one. -/
  | blockRound (vacant : Bool)
  | chainRound
  | argumentRound
  | parameterRound
  deriving DecidableEq, Repr

namespace Parser.Part

/-- What a part yields. -/
abbrev Value : Parser.Part → Type
  | importClause => ImportClause
  | terminatedStatement | statement | forRange | whileLoop | ifChain | declaration | manipulation
  | definition | returnValue => Statement
  | block => Block Statement
  | branch _ => Branch Statement
  | call => Token × List Offside.Value
  | argument => Offside.Value
  | expression => Expression
  | comparison => Comparison
  | programRound | blockRound _ => Option Statement
  | chainRound => Option ChainLink
  | argumentRound => Offside.Value × Bool
  | parameterRound => Parameter × Bool

/-- A part on the cursor. -/
def parse (fuel : Nat) : (part : Parser.Part) → Parsing part.Value
  | importClause => Parsing.importClause
  | terminatedStatement => Parsing.terminatedStatement (Parsing.block fuel) fuel
  | statement => Parsing.statement (Parsing.block fuel) fuel
  | block => Parsing.block fuel
  | forRange => Parsing.forRange (Parsing.block fuel)
  | whileLoop => Parsing.whileLoop (Parsing.block fuel)
  | ifChain => Parsing.ifChain (Parsing.block fuel) fuel
  | branch word => Parsing.branch (Parsing.block fuel) word
  | declaration => Parsing.declaration fuel
  | manipulation => Parsing.manipulation
  | call => Parsing.call fuel
  | argument => Parsing.argument (Parsing.call fuel)
  | definition => Parsing.definition (Parsing.block fuel) fuel
  | returnValue => Parsing.returnValue
  | expression => Parsing.expression
  | comparison => Parsing.comparison
  | programRound => Parsing.statementRound (Parsing.block fuel) fuel Parsing.closeProgram
  | blockRound vacant =>
      Parsing.statementRound (Parsing.block fuel) fuel (Parsing.closeBlock vacant)
  | chainRound => Parsing.chainRound (Parsing.block fuel) fuel
  | argumentRound => Parsing.listRound (Parsing.argument (Parsing.call fuel))
  | parameterRound => Parsing.listRound Parsing.parameter

/-- The reader of a part, with as many blocks and calls inside one another as tokens allow. -/
def read : (part : Parser.Part) → Reader part.Value
  | importClause => Reader.importClause
  | terminatedStatement => do
      Reader.terminatedStatement (Reader.blockWithin (← Reader.unread).length)
  | statement => do Reader.statement (Reader.blockWithin (← Reader.unread).length)
  | block => do Reader.blockWithin (← Reader.unread).length
  | forRange => do Reader.forRange (Reader.blockWithin (← Reader.unread).length)
  | whileLoop => do Reader.whileLoop (Reader.blockWithin (← Reader.unread).length)
  | ifChain => do Reader.ifChain (Reader.blockWithin (← Reader.unread).length)
  | branch word => do Reader.branch (Reader.blockWithin (← Reader.unread).length) word
  | declaration => Reader.declaration
  | manipulation => Reader.manipulation
  | call => Reader.call
  | argument => do Reader.argumentWithin (← Reader.unread).length
  | definition => do Reader.definition (Reader.blockWithin (← Reader.unread).length)
  | returnValue => Reader.returnValue
  | expression => Reader.expression
  | comparison => Reader.comparison
  | programRound => do
      Reader.statementRound (Reader.blockWithin (← Reader.unread).length) Reader.closeProgram
  | blockRound vacant => do
      Reader.statementRound (Reader.blockWithin (← Reader.unread).length)
        (Reader.closeBlock vacant)
  | chainRound => do Reader.chainRound (Reader.blockWithin (← Reader.unread).length)
  | argumentRound => do Reader.listRound (Reader.argumentWithin (← Reader.unread).length)
  | parameterRound => Reader.listRound Reader.parameter

/-- Whether a part has found what it is for. A round of a program or of a chain can succeed as
    well by finding that its loop is over. -/
def finds : (part : Parser.Part) → part.Value → Bool
  | programRound, found => found.isSome
  | chainRound, found => found.isSome
  | _, _ => true

/-- Where a round ends that finds nothing. -/
def resting (parser : Parser) : Parser.Part → Nat
  | chainRound => parser.position
  | _ => parser.tokens.length

open Parsing

/-- A round that finds nothing leaves the cursor where its loop rests: in front of the line breaks
    for a chain, at the end of the tokens for a program. -/
theorem position_of_vain (part : Parser.Part) {parser after : Parser} {fuel : Nat}
    {value : part.Value} (run : part.parse fuel parser = .ok value after)
    (kept : parser.Kept after) (vain : part.finds value = false) :
    after.position = part.resting parser := by
  cases part with
  | chainRound =>
      cases value with
      | none => exact chainRound_none run
      | some found => cases vain
  | programRound =>
      cases value with
      | none =>
          have ended : after.tokens.length ≤ after.position :=
            List.getElem?_eq_none_iff.mp (programRound_none run)
          exact (Nat.le_antisymm kept.inside ended).trans (congrArg List.length kept.tokens)
      | some found => cases vain
  | _ => cases vain

/-- Every part is read alike, given more fuel than tokens are left, and what it finds has moved the
    cursor on. The cases are the productions and the rounds of the loops. -/
theorem parse_reads (part : Parser.Part) {limit fuel : Nat} (enough : limit < fuel) :
    Reads limit (fun value => if part.finds value then 1 else 0) (part.parse fuel) part.read := by
  have blocks {limit : Nat} (enough : limit < fuel) :
      Reads limit (fun _ => 1) (Parsing.block fuel) (Reader.blockWithin limit) :=
    blockWithin_reads enough (Nat.le_refl _)
  have calls {limit : Nat} (enough : limit < fuel) :
      Reads limit (fun _ => 1) (Parsing.call fuel) (Reader.callWithin limit) :=
    callWithin_reads enough (Nat.le_refl _)
  cases part with
  | importClause => exact importClause_reads
  | terminatedStatement =>
      exact reads_unread fun rest left =>
        terminatedStatement_reads (blocks (by omega)) (by omega)
  | statement =>
      exact reads_unread fun rest left => statement_reads (blocks (by omega)) (by omega)
  | block => exact reads_unread fun rest left => blocks (by omega)
  | forRange => exact reads_unread fun rest left => forRange_reads (blocks (by omega))
  | whileLoop => exact reads_unread fun rest left => whileLoop_reads (blocks (by omega))
  | ifChain => exact reads_unread fun rest left => ifChain_reads (blocks (by omega)) (by omega)
  | branch word => exact reads_unread fun rest left => branch_reads (blocks (by omega)) word
  | declaration => exact declaration_reads enough
  | manipulation => exact manipulation_reads
  | call => exact call_reads enough
  | argument => exact reads_unread fun rest left => argument_reads (calls (by omega))
  | definition =>
      exact reads_unread fun rest left => definition_reads (blocks (by omega)) (by omega)
  | returnValue => exact returnValue_reads
  | expression => exact expression_reads
  | comparison => exact comparison_reads
  | programRound =>
      exact reads_unread fun rest left =>
        statementRound_reads (blocks (by omega)) closeProgram_reads (by omega)
  | blockRound vacant =>
      refine reads_unread fun rest left =>
        (statementRound_reads (blocks (by omega)) (closeBlock_reads vacant) (by omega)).mono
          (Nat.le_refl _) fun round => ?_
      cases round <;> exact Nat.le_refl 1
  | chainRound =>
      exact reads_unread fun rest left => chainRound_reads (blocks (by omega)) (by omega)
  | argumentRound =>
      exact reads_unread fun rest left => listRound_reads (argument_reads (calls (by omega)))
  | parameterRound => exact listRound_reads parameter_reads

end Parser.Part

/-- Wherever the cursor is, every part of the parser ends, given more fuel than there are tokens
    left, and ends like its reader. If it succeeds, the cursor has moved forward and is not past
    the end; only a round that finds nothing, and so is the last one, ends at the end of the input
    or, in a chain, where it has started. Whether or not a part succeeds, the trail is the old one,
    definitions have only been added at the end, and no token was made up. A whole program does the
    same and hands over the definitions. It is read from the first token on, which is how token
    lists are parsed. -/
theorem parser_advances :
    (∀ (part : Parser.Part) (parser : Parser) (fuel : Nat),
      parser.position ≤ parser.tokens.length → parser.unread < fuel →
        match part.parse fuel parser with
        | .ok value after =>
            part.read parser.context parser.state = .ok value after.state ∧
              parser.Kept after ∧
              (part.finds value = true → parser.position < after.position) ∧
              (part.finds value = false → after.position = part.resting parser)
        | .error failure after =>
            part.read parser.context parser.state = .error failure after.state ∧
              parser.Kept after) ∧
    (∀ (parser : Parser) (fuel : Nat),
      parser.position ≤ parser.tokens.length → parser.unread < fuel →
        match Parsing.program fuel parser with
        | .ok program after =>
            Reader.program parser.context parser.state =
                .ok program { after.state with functions := program.functions } ∧
              parser.Kept { after with functions := program.functions } ∧
              parser.position < after.position ∧ after.functions = []
        | .error failure after =>
            Reader.program parser.context parser.state = .error failure after.state ∧
              parser.Kept after) ∧
    ∀ (tokens : List Token) (events : Array Event) (fuel : Nat), tokens.length < fuel →
      Program.parse tokens events =
        match Parsing.program fuel (.start tokens events) with
        | .ok program after =>
            .ok program
              (after.events.push (.parsed program.body.length program.functions.length))
        | .error failure after => .error failure after.events := by
  refine ⟨fun part parser fuel inside enough => ?_, fun parser fuel inside enough => ?_,
    fun tokens events fuel enough => ?_⟩
  · have ends := part.parse_reads enough parser ⟨inside, Nat.le_refl _⟩
    generalize run : part.parse fuel parser = result at ends
    generalize part.read parser.context parser.state = outcome at ends
    cases ends with
    | ok kept ahead =>
        refine ⟨rfl, kept, fun finds => ?_, fun vain => part.position_of_vain run kept vain⟩
        rw [if_pos finds] at ahead
        exact ahead
    | error kept => exact ⟨rfl, kept⟩
  · exact Parsing.program_ends ⟨inside, Nat.le_refl _⟩ enough
  · have ready : (Parser.start tokens events).Ready tokens.length :=
      ⟨Nat.zero_le _, Nat.le_refl _⟩
    have ends := Parsing.program_ends ready enough
    simp only [Program.parse]
    generalize Parsing.program fuel (.start tokens events) = result at ends
    cases result with
    | ok program after =>
        have run : Reader.program ⟨["parse"], tokens.length, Token.lastLine tokens⟩
            ⟨tokens, [], events⟩ = _ := ends.1
        rw [run]
        rfl
    | error failure after =>
        have run : Reader.program ⟨["parse"], tokens.length, Token.lastLine tokens⟩
            ⟨tokens, [], events⟩ = _ := ends.1
        rw [run]
        rfl

/-- A chain with line breaks after it, which are read and given back. -/
theorem parser_advances_chain :
    let word (kind : Kind) (lexeme : String) : Token := ⟨kind, lexeme, 1⟩
    let condition : Token := word .identifier "x"
    let printed : Token := word .print "print"
    let tokens : List Token :=
      [.newline 1, word .ifWord "if", condition, word .colon ":", .newline 1, printed,
        word .leftParen "(", word .rightParen ")", .newline 1, .closeBlock 1, .newline 1,
        .newline 1, word .identifier "y"]
    let parser : Parser := ⟨tokens, 1, ["parse", "program", "statement"], [], #[], []⟩
    let after : Parser := { parser with position := 10, events := #[.rewound 12 10] }
    let chain : Statement :=
      .ifChain [⟨word .ifWord "if", ⟨⟨condition, none⟩, none⟩, ⟨1, [.call printed []]⟩⟩] none
    (parser.position ≤ parser.tokens.length ∧ parser.unread < 20) ∧
      Parser.Part.ifChain.parse 20 parser = .ok chain after ∧
      Parser.Part.ifChain.read parser.context parser.state = .ok chain after.state ∧
      parser.Kept after ∧ parser.position < after.position := by
  intro word condition printed tokens parser after chain
  have inside : parser.position ≤ parser.tokens.length := by decide
  have enough : parser.unread < 20 := by decide
  have run : Parser.Part.ifChain.parse 20 parser = .ok chain after := by cbv
  clear_value after chain parser
  have advances := parser_advances.1 .ifChain parser 20 inside enough
  rw [run] at advances
  obtain ⟨read, kept, ahead, -⟩ := advances
  exact ⟨⟨inside, enough⟩, run, read, kept, ahead rfl⟩

end Offside
