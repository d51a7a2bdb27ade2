import Offside.Proofs.Syntax.Reading

/-!
# What is left to decide

Two decisions of the grammar are not settled by the production alone: whether the value of
a declaration is a call or a literal, and what becomes of the line breaks after a branch that
no continuation follows. A strategy settles both. With a strategy for them, every production
above them is the same reader again.

The grammar goes back: it reads a call and throws it away, and it takes up the line breaks
again. A predictive strategy never does. It looks at the next two tokens to tell a call, and
it leaves line breaks that it has passed behind.
-/

namespace Offside.Reader

/-- How the two open decisions of the grammar are made. -/
structure Strategy where
  /-- Reads the initial value of a declaration. -/
  initialValue : Reader Value
  /-- What is done where no continuation follows a branch, with the unread tokens from
      before the line breaks. -/
  endChain : List Token → Reader Unit

namespace Strategy

/-- A value is tried as a call first, and line breaks are left unread. -/
def backtracking : Strategy where
  initialValue := Reader.initialValue
  endChain := rewind

/-- The initial value of a declaration, foreseen: a call if a callee and an opening
    parenthesis come next, and a literal otherwise. -/
def foreseenValue : Reader Value := do
  if ← atCall then
    let (callee, arguments) ← call
    return .call callee arguments
  else return .terminal (← expectAny literals)

/-- A value is read once, and line breaks that were passed stay behind. -/
def predictive : Strategy where
  initialValue := foreseenValue
  endChain := fun _ => return ()

variable (strategy : Strategy)

/-- A name with its type and initial value. -/
def declaration : Reader Statement :=
  production "declaration" do
    let name ← expect .identifier
    let _ ← expect .colon
    let type ← expect .identifier
    let _ ← expect .assign
    return .declaration name type (← strategy.initialValue)

/-- A statement that starts with a name. -/
def namedStatement : Reader Statement := do
  match ← nextKind with
  | some .colon => strategy.declaration
  | some .assign => manipulation
  | some .leftParen => callStatement
  | _ =>
      advance
      unexpected [.colon, .assign, .leftParen]

section Compound

variable (block : Reader (Block Statement))

/-- What continues a chain after a branch, at most `bound` times. -/
def continuation : Nat → Reader (List (Branch Statement) × Option (Block Statement))
  | 0 => do
      strategy.endChain (← unread)
      return ([], none)
  | bound + 1 => do
      let checkpoint ← unread
      skipNewlines
      match ← currentKind with
      | some .elifWord =>
          let next ← branch block .elifWord
          let (branches, otherwise) ← continuation bound
          return (next :: branches, otherwise)
      | some .elseWord =>
          advance
          return ([], some (← block))
      | _ =>
          strategy.endChain checkpoint
          return ([], none)

/-- A chain of branches. -/
def ifChain : Reader Statement :=
  production "if" do
    let first ← branch block .ifWord
    let (branches, otherwise) ← strategy.continuation block (← unread).length
    return .ifChain (first :: branches) otherwise

/-- What stands inside the production of a statement that starts with a token of this
    kind. -/
def statementAt : Option Kind → Reader Statement
  | some .forWord => forRange block
  | some .whileWord => whileLoop block
  | some .ifWord => strategy.ifChain block
  | some .defWord => definition block
  | some .returnWord => returnValue
  | some .print => callStatement
  | some .identifier => strategy.namedStatement
  | some .importWord | some .fromWord => fail .lateImport
  | _ => do fail (.expectedStatement (← current))

/-- A statement, whatever must follow it apart. -/
def statement : Reader Statement :=
  production "statement" do strategy.statementAt block (← currentKind)

/-- A statement and whatever must follow it. -/
def terminatedStatement : Reader Statement := do
  let result ← strategy.statement block
  if result.endsWithBlock then return result
  lineEnd
  return result

/-- Statements up to the end of a block or of the input, at most `bound` of them. -/
def statementsWithin : Nat → Reader (List Statement)
  | 0 => return []
  | bound + 1 => do
      skipNewlines
      match ← currentKind with
      | none | some .closeBlock => return []
      | some _ =>
          let first ← strategy.terminatedStatement block
          return first :: (← statementsWithin bound)

/-- Statements up to the end of a block or of the input. -/
def statements : Reader (List Statement) := do
  strategy.statementsWithin block (← unread).length

end Compound

/-- A block in which blocks nest at most `bound` deep. -/
def blockWithin : Nat → Reader (Block Statement)
  | 0 => production "block" (unexpected [.colon])
  | bound + 1 =>
      production "block" do
        let line ← currentLine
        let _ ← expect .colon
        let _ ← expect .newline
        let statements ← strategy.statements (blockWithin bound)
        match ← currentKind with
        | some .closeBlock =>
            if statements.isEmpty then fail .emptyBlock
            advance
            return ⟨line, statements⟩
        | _ => fail .unterminatedBlock

/-- What stands inside the production of a program. -/
def programInside : Reader Program := do
  skipNewlines
  let clause ← importClause
  lineEnd
  let body ← strategy.statements (strategy.blockWithin (← unread).length)
  match ← currentKind with
  | some _ => fail .strayBlockEnd
  | none => return ⟨clause, body, (← get).functions⟩

/-- A whole program. -/
def program : Reader Program :=
  production "program" strategy.programInside

/-! ## The grammar is the strategy that goes back -/

variable {block : Reader (Block Statement)}

/-- With the strategy of going back, what continues a chain is read as the grammar says, by
    induction on the bound. -/
theorem backtracking_continuation (bound : Nat) :
    backtracking.continuation block bound = Reader.continuation block bound := by
  induction bound with
  | zero => rfl
  | succ bound ih =>
      rw [continuation, Reader.continuation, ih]
      rfl

/-- With the strategy of going back, a statement is read as the grammar says, whatever reads the
    blocks in it. -/
theorem backtracking_statement : backtracking.statement block = Reader.statement block := by
  have chain : backtracking.ifChain block = Reader.ifChain block := by
    simp only [ifChain, Reader.ifChain, backtracking_continuation]
  have inside : backtracking.statementAt block = fun kind => _ := funext fun kind => by
    rw [statementAt.eq_def, chain]
  rw [statement, inside]
  rfl

/-- With the strategy of going back, a list of statements is read as the grammar says, by induction
    on the bound that the unread tokens give. -/
theorem backtracking_statements : backtracking.statements block = Reader.statements block := by
  have list (bound : Nat) :
      backtracking.statementsWithin block bound = Reader.statementsWithin block bound := by
    induction bound with
    | zero => rfl
    | succ bound ih =>
        rw [statementsWithin, Reader.statementsWithin, ih, terminatedStatement,
          backtracking_statement]
        rfl
  simp only [statements, Reader.statements, list]

/-- With the strategy of going back, a block is read as the grammar says, by induction on how deep
    blocks may nest in it. -/
theorem backtracking_blockWithin (bound : Nat) :
    backtracking.blockWithin bound = Reader.blockWithin bound := by
  induction bound with
  | zero => rfl
  | succ bound ih =>
      rewrite [blockWithin, Reader.blockWithin, ih, backtracking_statements]
      rfl

/-- With the strategy of going back, a whole program is read as the grammar says. So what holds of
    every strategy holds of the grammar. -/
theorem backtracking_program : backtracking.program = Reader.program := by
  refine congrArg (production "program") (bind_congr fun _ => bind_congr fun _ =>
    bind_congr fun _ => bind_congr fun rest => ?_)
  rewrite [backtracking_blockWithin, backtracking_statements]
  rfl

end Strategy

end Offside.Reader
