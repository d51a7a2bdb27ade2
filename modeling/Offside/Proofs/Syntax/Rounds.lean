import Offside.Proofs.Syntax.Reading

/-!
# Readers round by round

The loops of the grammar, taken apart into rounds. A reader of several items goes round once for
each of them, and each of its rounds is a reader of its own. The statements of a block and those of
a program are followed by what has to stand at their end, so that end belongs to the last round.

At the end of the input no bound on the rounds or on the nesting makes a difference.
-/

namespace Offside

/-- What continues a chain: another branch, or the block for when none is taken. -/
abbrev ChainLink := Branch Statement ⊕ Block Statement

namespace Reader

variable {α : Type}

/-- Move past the current token if it has this kind. -/
def passes (kind : Kind) : Reader Bool :=
  return (← accept? (· == kind)).isSome

/-- Skipping line breaks is passing them one by one as long as there are any. -/
theorem skipNewlines_eq :
    skipNewlines = do
      if ← passes .newline then skipNewlines
      else return () := by
  funext context state
  obtain ⟨rest, functions, events⟩ := state
  cases rest with
  | nil => rfl
  | cons token rest =>
      by_cases isBreak : token.kind = .newline
      · rw [skipNewlines_apply, passes, bind_assoc, bind_of_ok (accept?_cons (by simp [isBreak]))]
        simp [isBreak]
      · rw [skipNewlines_apply, passes, bind_assoc, bind_of_ok (accept?_none (by simp [isBreak]))]
        simp [isBreak]

/-! ### Rounds of loops -/

/-- A round over items with commas between them: an item, and whether another one follows. -/
def listRound (item : Reader α) : Reader (α × Bool) := do
  let value ← item
  return (value, ← passes .comma)

/-- Items with commas are a first round and, if it has ended with a comma, the items behind it. -/
theorem separatedWithin_succ (item : Reader α) (bound : Nat) :
    separatedWithin item (bound + 1) = do
      let (value, more) ← listRound item
      if more then return value :: (← separatedWithin item bound)
      else return [value] := by
  rw [separatedWithin, listRound, bind_assoc]
  refine bind_congr fun value => ?_
  rw [passes, bind_assoc, bind_assoc]
  refine bind_congr fun comma => ?_
  cases comma <;> rfl

/-- A result type is read in one round: if an arrow is passed, the type behind it, and otherwise
    nothing. -/
theorem resultType_eq :
    resultType = do
      if ← passes .arrow then
        let type ← expectAny [.identifier, .nullLiteral]
        return if type.isIdentifier then some type else none
      else return none := by
  rw [resultType, passes, bind_assoc]
  refine bind_congr fun arrow => ?_
  cases arrow <;> rfl

section Rounds

variable (block : Reader (Block Statement)) (bound : Nat)

/-- A round over the continuations of a chain: another branch, the block for when none is taken,
    or neither. -/
def chainRound : Reader (Option ChainLink) := do
  let checkpoint ← unread
  skipNewlines
  match ← currentKind with
  | some .elifWord => return some (.inl (← branch block .elifWord))
  | some .elseWord =>
      advance
      return some (.inr (← block))
  | _ =>
      rewind checkpoint
      return none

/-- What continues a chain is a first round and, if it has found a branch, what continues the chain
    behind it. -/
theorem continuation_succ :
    continuation block (bound + 1) = do
      match ← chainRound block with
      | some (.inl next) =>
          let (branches, otherwise) ← continuation block bound
          return (next :: branches, otherwise)
      | some (.inr body) => return ([], some body)
      | none => return ([], none) := by
  simp only [continuation, chainRound, bind_assoc]
  refine bind_congr fun checkpoint => bind_congr fun _ => bind_congr fun kind => ?_
  split <;> simp [*]

/-- A round over the statements of a block or of a program: a statement, or the end, which `close`
    deals with. -/
def statementRound (close : Reader Unit) : Reader (Option Statement) := do
  skipNewlines
  match ← currentKind with
  | none | some .closeBlock =>
      close
      return none
  | some _ => return some (← terminatedStatement block)

/-- The statements of a block or of a program, with what happens at their end. -/
def closedStatements (close : Bool → Reader Unit) (vacant : Bool) : Reader (List Statement) := do
  let later ← statementsWithin block bound
  close (vacant && later.isEmpty)
  return later

/-- Statements with their end are a first round and, if it has found a statement, the others with
    their end. The end is told that there was one. -/
theorem closedStatements_succ (close : Bool → Reader Unit) (vacant : Bool) :
    closedStatements block (bound + 1) close vacant = do
      match ← statementRound block (close vacant) with
      | none => return []
      | some first => return first :: (← closedStatements block bound close false) := by
  simp only [closedStatements, statementsWithin, statementRound, bind_assoc]
  refine bind_congr fun _ => bind_congr fun kind => ?_
  split <;> simp

end Rounds

/-- The end of a block, which must have a statement. -/
def closeBlock (vacant : Bool) : Reader Unit := do
  match ← currentKind with
  | some .closeBlock =>
      if vacant then fail .emptyBlock
      advance
  | _ => fail .unterminatedBlock

/-- A block is a colon, a line break and the statements behind them, closed by the end of the block,
    with less nesting inside by one. -/
theorem blockWithin_succ (bound : Nat) :
    blockWithin (bound + 1) =
      production "block" do
        let line ← currentLine
        let _ ← expect .colon
        let _ ← expect .newline
        let rest ← unread
        return ⟨line, ← closedStatements (blockWithin bound) rest.length closeBlock true⟩ := by
  refine congrArg _ (bind_congr fun line => bind_congr fun _ => bind_congr fun _ => ?_)
  simp only [statements, closedStatements, closeBlock, bind_assoc]
  refine bind_congr fun rest => bind_congr fun list => bind_congr fun kind => ?_
  rcases kind with _ | kind
  · rfl
  · cases kind
    case closeBlock => cases list <;> rfl
    all_goals rfl

/-- The end of a program is the end of the input. -/
def closeProgram : Reader Unit := do
  match ← currentKind with
  | some _ => fail .strayBlockEnd
  | none => return ()

/-- The import clause and the statements of a program. -/
def programParts : Reader (ImportClause × List Statement) := do
  skipNewlines
  let clause ← importClause
  lineEnd
  let nesting ← unread
  let rest ← unread
  return (clause, ← closedStatements (blockWithin nesting.length) rest.length
    (fun _ => closeProgram) true)

/-- A program is its import clause and its statements, with the definitions that have been met at
    the end. -/
theorem program_eq :
    program =
      production "program" do
        let (clause, body) ← programParts
        return ⟨clause, body, (← get).functions⟩ := by
  refine congrArg _ ?_
  simp only [programParts, statements, closedStatements, closeProgram, bind_assoc]
  refine bind_congr fun _ => bind_congr fun clause => bind_congr fun _ =>
    bind_congr fun nesting => bind_congr fun rest => bind_congr fun list =>
      bind_congr fun kind => ?_
  cases kind <;> rfl

/-! ### The end of the input -/

/-- Where no token is left, nothing continues a chain, whatever the bound, though going back is
    still reported. -/
theorem continuation_ended (block : Reader (Block Statement)) (bound : Nat) (context : Context)
    (state : State) (empty : state.rest = []) :
    continuation block bound context state = (do rewind []; return ([], none)) context state := by
  obtain ⟨rest, functions, events⟩ := state
  subst empty
  cases bound <;> rfl

/-- Where no token is left, a block gives up, however deep blocks may nest. -/
theorem blockWithin_ended (bound : Nat) (context : Context) (state : State)
    (empty : state.rest = []) :
    blockWithin bound context state = production "block" (unexpected [.colon]) context state := by
  obtain ⟨rest, functions, events⟩ := state
  subst empty
  cases bound <;> rfl

/-- Where no token is left, there are no more statements, whatever the bound, and only the end is
    dealt with. -/
theorem closedStatements_ended (block : Reader (Block Statement)) (close : Bool → Reader Unit)
    (vacant : Bool) (bound : Nat) (context : Context) (state : State) (empty : state.rest = []) :
    closedStatements block bound close vacant context state =
      (do close vacant; return []) context state := by
  obtain ⟨rest, functions, events⟩ := state
  subst empty
  have none : statementsWithin block bound context ⟨[], functions, events⟩ =
      .ok [] ⟨[], functions, events⟩ := by
    cases bound <;> rfl
  rw [closedStatements, bind_of_ok none, List.isEmpty_nil, Bool.and_true]

end Reader

end Offside
