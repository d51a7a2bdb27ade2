import Offside.Proofs.Syntax.Reading

/-!
# Failures of readers

A reader that fails reports a fault of syntax, and nothing else: the trail of the
report goes on from the productions that the reader stands in, and the message is
the wording of a fault. This holds for the primitive readers, and every way of
putting readers together keeps it.

A failed attempt at a call is the only failure that is ever taken back. Where it
is not taken back it is reported unchanged, in the productions it was met in.
-/

namespace Offside.Reader

variable {α β : Type}

/-- The failure is a fault of syntax, met in the productions of the trail or
    inside them. -/
def Blamed (trail : List String) (failure : Failure) : Prop :=
  ∃ inner line fault, failure = .parse ⟨trail ++ inner, line, SyntaxFault.message fault⟩

/-- Every failure of the reader is a fault of syntax, met where the reader
    stands. -/
def Blames (reader : Reader α) : Prop :=
  ∀ context state failure after, reader context state = .error failure after →
    Blamed context.trail failure

/-- A reader that always succeeds has no failure to report. -/
theorem blames_of_ok {reader : Reader α}
    (succeeds : ∀ context state, ∃ value after, reader context state = .ok value after) :
    Blames reader := by
  intro context state failure after run
  obtain ⟨value, reached, ran⟩ := succeeds context state
  rw [ran] at run
  cases run

/-- Returning a value never fails, so there is nothing to be blamed. -/
theorem blames_pure (value : α) : Blames (pure value : Reader α) :=
  blames_of_ok fun _ _ => ⟨_, _, rfl⟩

/-- Changing the state never fails, whatever the change is. -/
theorem blames_modify (change : State → State) : Blames (modify change : Reader PUnit) :=
  blames_of_ok fun _ _ => ⟨_, _, rfl⟩

/-- Asking for the state never fails and leaves it as it is. -/
theorem blames_get : Blames (get : Reader State) :=
  blames_of_ok fun _ _ => ⟨_, _, rfl⟩

/-- Adding an event to those that were reported never fails, as events have no say in what is
    read. -/
theorem blames_report (event : Event) : Blames (report event) :=
  blames_of_ok fun _ _ => ⟨_, _, rfl⟩

/-- Looking at the unread tokens never fails, even where there are none. -/
theorem blames_unread : Blames unread :=
  blames_of_ok fun _ _ => ⟨_, _, rfl⟩

/-- Looking at the current token never fails, for there may be none. -/
theorem blames_current : Blames current :=
  blames_of_ok fun _ _ => ⟨_, _, rfl⟩

/-- Looking at the kind of the current token never fails. At the end of the input there is none. -/
theorem blames_currentKind : Blames currentKind :=
  blames_of_ok fun _ _ => ⟨_, _, rfl⟩

/-- Looking at the kind of the token behind the current one never fails. There may be none. -/
theorem blames_nextKind : Blames nextKind :=
  blames_of_ok fun _ _ => ⟨_, _, rfl⟩

/-- Asking for the line never fails: at the end of the input it is that of the last token. -/
theorem blames_currentLine : Blames currentLine :=
  blames_of_ok fun _ _ => ⟨_, _, rfl⟩

/-- Going past a token never fails, not even at the end of the input, where it does nothing. -/
theorem blames_advance : Blames advance :=
  blames_modify _

/-- Skipping line breaks never fails, no matter how many there are or whether there are any. -/
theorem blames_skipNewlines : Blames skipNewlines :=
  blames_modify _

/-- Finding out whether a call comes next never fails, for it only looks at two kinds. -/
theorem blames_atCall : Blames atCall :=
  blames_of_ok fun _ _ => ⟨_, _, atCall_apply⟩

/-- Going back to a checkpoint never fails, wherever the reader has come to in the meantime. -/
theorem blames_rewind (checkpoint : List Token) : Blames (rewind checkpoint) :=
  blames_of_ok fun _ _ => ⟨_, _, rfl⟩

/-- Failing with a fault on a line reports just this fault, met where the reader stands. -/
theorem blames_failOn (line : Nat) (fault : SyntaxFault) :
    Blames (failOn line fault : Reader α) := by
  intro context state failure after run
  cases run
  exact ⟨[], line, fault, by simp⟩

/-- Failing with a fault reports it on the line of the current token. -/
theorem blames_fail (fault : SyntaxFault) : Blames (fail fault : Reader α) := by
  intro context state failure after run
  exact blames_failOn _ fault context state failure after run

/-- Failing because of the current token reports a fault whose wording names it and the kinds that
    were expected. -/
theorem blames_unexpected (kinds : List Kind) : Blames (unexpected kinds : Reader α) := by
  intro context state failure after run
  exact blames_fail (.expected kinds state.rest.head?) context state failure after run

/-- The first failure of a sequence is its failure, so a sequence blames if both of its parts do. -/
theorem blames_bind {first : Reader α} {second : α → Reader β} (firstBlames : Blames first)
    (secondBlames : ∀ value, Blames (second value)) : Blames (first >>= second) := by
  intro context state failure after run
  cases ran : first context state with
  | ok value middle =>
      rw [bind_of_ok ran] at run
      exact secondBlames value context middle failure after run
  | error other middle =>
      rw [bind_of_error ran] at run
      cases run
      exact firstBlames context state failure after ran

/-- A production inside another one is blamed inside it: its name stands at the end of the trail
    with which the reader inside starts. -/
theorem blames_production (name : String) {reader : Reader α} (blames : Blames reader) :
    Blames (production name reader) := by
  intro context state failure after run
  obtain ⟨inner, line, fault, rfl⟩ := blames _ state failure after run
  exact ⟨name :: inner, line, fault, by simp⟩

/-- An optional token is taken or left, and neither fails. So there is nothing to be blamed. -/
theorem blames_accept? (admitted : Kind → Bool) : Blames (accept? admitted) := by
  apply blames_of_ok
  intro context state
  rw [accept?_apply]
  cases state.rest with
  | nil => exact ⟨_, _, rfl⟩
  | cons token rest => by_cases admits : admitted token.kind = true <;> simp [admits]

/-- A token of some kinds that is demanded is there, or what stands in its place is blamed. -/
theorem blames_expectAny (kinds : List Kind) : Blames (expectAny kinds) := by
  refine blames_bind (blames_accept? _) fun taken => ?_
  cases taken with
  | none => exact blames_unexpected kinds
  | some token => exact blames_pure token

/-- A token of one kind that is demanded is there, or what stands in its place is blamed. -/
theorem blames_expect (kind : Kind) : Blames (expect kind) :=
  blames_expectAny [kind]

/-- A list in parentheses blames what one of its items blames, or a token that should be a comma or
    close it. The induction is on the bound for the items. -/
theorem blames_parenthesized {item : Reader α} (blames : Blames item) :
    Blames (parenthesized item) := by
  have within (bound : Nat) : Blames (separatedWithin item bound) := by
    induction bound with
    | zero => exact blames_bind blames fun first => blames_pure [first]
    | succ bound ih =>
        refine blames_bind blames fun first => blames_bind (blames_accept? _) fun taken => ?_
        cases taken with
        | none => exact blames_pure [first]
        | some comma => exact blames_bind ih fun later => blames_pure (first :: later)
  refine blames_bind (blames_expect _) fun left => blames_bind blames_currentKind fun kind => ?_
  split
  · exact blames_bind (blames_pure []) fun items =>
      blames_bind (blames_expect _) fun right => blames_pure items
  · exact blames_bind (blames_bind blames_unread fun rest => within rest.length) fun items =>
      blames_bind (blames_expect _) fun right => blames_pure items

/-! ## Statements on one line -/

/-- An expression blames an operand that is missing. An operator in it is optional, so none is
    missed. -/
theorem expression_blames : Blames expression := by
  apply blames_production
  refine blames_bind (blames_expectAny _) fun left => blames_bind (blames_accept? _) fun taken => ?_
  cases taken with
  | none => exact blames_pure _
  | some operator => exact blames_bind (blames_expectAny _) fun right => blames_pure _

/-- A condition blames what one of its expressions blames, for a comparator is optional. -/
theorem comparison_blames : Blames comparison := by
  apply blames_production
  refine blames_bind expression_blames fun left => blames_bind (blames_accept? _) fun taken => ?_
  cases taken with
  | none => exact blames_pure _
  | some comparator => exact blames_bind expression_blames fun right => blames_pure _

/-- A call within a bound blames its callee, a parenthesis or an argument. The induction is on the
    bound, which is lower for the calls in it. -/
theorem callWithin_blames (bound : Nat) : Blames (callWithin bound) := by
  induction bound with
  | zero => exact blames_production "call" (blames_unexpected callees)
  | succ bound ih =>
      have argument : Blames (argumentWithin bound) := by
        refine blames_bind blames_atCall fun shaped => ?_
        split
        · exact blames_bind ih fun nested => blames_pure _
        · exact blames_bind (blames_expectAny _) fun token => blames_pure _
      rw [callWithin_succ]
      exact blames_production "call" (blames_bind (blames_expectAny _) fun callee =>
        blames_bind (blames_parenthesized argument) fun arguments => blames_pure _)

/-- A call blames what it blames within the bound that the unread tokens give. -/
theorem call_blames : Blames call :=
  blames_bind blames_unread fun rest => callWithin_blames rest.length

/-- The value of a declaration blames an expression or a call, for which of the two it is has been
    settled without failing. -/
theorem initialValue_blames : Blames initialValue := by
  refine blames_bind blames_atCall fun shaped => blames_bind blames_unread fun checkpoint => ?_
  intro context state failure after run
  rw [tryCatch_apply] at run
  split at run
  · cases run
  · rename_i attempted reached ran
    have blamed : Blamed context.trail attempted :=
      blames_bind call_blames (fun _ => blames_pure _) context state attempted reached ran
    -- A call that was taken back is not blamed; its place is read again as a literal.
    cases shaped with
    | true =>
        cases run
        exact blamed
    | false =>
        have literal : Blames (literalAfter false checkpoint attempted) :=
          blames_bind (blames_report _) fun _ => blames_bind (blames_rewind _) fun _ =>
            blames_bind (blames_expectAny _) fun token => blames_pure _
        exact literal context reached failure after run

/-- The end of a line blames what stands there instead of a line break or a block end. -/
theorem lineEnd_blames : Blames lineEnd := by
  refine blames_bind blames_current fun token => ?_
  cases token with
  | none => exact blames_pure ()
  | some token =>
      dsimp only
      split
      · exact blames_pure ()
      · exact blames_fail _

/-- A statement that starts with a name blames the part of a declaration, a manipulation or a call
    that is missing. -/
theorem namedStatement_blames : Blames namedStatement := by
  refine blames_bind blames_nextKind fun kind => ?_
  split
  · exact blames_production "declaration" (blames_bind (blames_expect _) fun name =>
      blames_bind (blames_expect _) fun colon => blames_bind (blames_expect _) fun type =>
        blames_bind (blames_expect _) fun assign =>
          blames_bind initialValue_blames fun value => blames_pure _)
  · exact blames_production "manipulation" (blames_bind (blames_expect _) fun target =>
      blames_bind (blames_expect _) fun assign =>
        blames_bind expression_blames fun value => blames_pure _)
  · exact blames_bind call_blames fun parts => blames_pure _
  · exact blames_bind blames_advance fun _ => blames_unexpected _

/-! ## Statements with blocks -/

section Compound

variable {block : Reader (Block Statement)} (blockBlames : Blames block)

include blockBlames

/-- A branch blames its word, its condition or its block. Only the block is taken as given. -/
theorem branch_blames (word : Kind) : Blames (branch block word) :=
  blames_bind (blames_expect _) fun _ => blames_bind comparison_blames fun _ =>
    blames_bind blockBlames fun _ => blames_pure _

/-- What follows a branch blames a later branch or the block of an `else`, by induction on the bound
    for the branches. -/
theorem continuation_blames (bound : Nat) : Blames (continuation block bound) := by
  induction bound with
  | zero =>
      exact blames_bind blames_unread fun rest => blames_bind (blames_rewind _) fun _ =>
        blames_pure _
  | succ bound ih =>
      refine blames_bind blames_unread fun checkpoint => blames_bind blames_skipNewlines fun _ =>
        blames_bind blames_currentKind fun kind => ?_
      split
      · exact blames_bind (branch_blames blockBlames _) fun next =>
          blames_bind ih fun later => blames_pure _
      · exact blames_bind blames_advance fun _ => blames_bind blockBlames fun body =>
          blames_pure _
      · exact blames_bind (blames_rewind _) fun _ => blames_pure _

/-- A definition blames a part of its header, a parameter or its body. -/
theorem definition_blames : Blames (definition block) := by
  have typed : Blames parameter :=
    blames_bind (blames_expect _) fun name => blames_bind (blames_expect _) fun colon =>
      blames_bind (blames_expect _) fun type => blames_pure _
  have result : Blames resultType := by
    refine blames_bind (blames_accept? _) fun taken => ?_
    cases taken with
    | none => exact blames_pure none
    | some arrow => exact blames_bind (blames_expectAny _) fun type => blames_pure _
  have hoisted (found : Definition) : Blames (hoist found) :=
    blames_bind blames_get fun state => blames_bind (blames_report _) fun _ =>
      blames_bind (blames_modify _) fun _ => blames_pure _
  exact blames_production "function" (blames_bind (blames_expect _) fun keyword =>
    blames_bind (blames_expect _) fun name => blames_bind (blames_parenthesized typed) fun _ =>
      blames_bind result fun returns => blames_bind blockBlames fun body => hoisted _)

/-- A statement blames a part of one of its forms, or the token that starts none. -/
theorem statement_blames : Blames (statement block) := by
  apply blames_production
  refine blames_bind blames_currentKind fun kind => ?_
  split
  · exact blames_production "for" (blames_bind (blames_expect _) fun keyword =>
      blames_bind (blames_expect _) fun counter => blames_bind (blames_expect _) fun inside =>
        blames_bind (blames_expect _) fun range => blames_bind (blames_expect _) fun left =>
          blames_bind (blames_expectAny _) fun start => blames_bind (blames_expect _) fun comma =>
            blames_bind (blames_expectAny _) fun stop => blames_bind (blames_expect _) fun right =>
              blames_bind blockBlames fun body => blames_pure _)
  · exact blames_production "while" (blames_bind (blames_expect _) fun keyword =>
      blames_bind comparison_blames fun condition =>
        blames_bind blockBlames fun body => blames_pure _)
  · exact blames_production "if" (blames_bind (branch_blames blockBlames _) fun first =>
      blames_bind blames_unread fun rest =>
        blames_bind (continuation_blames blockBlames _) fun later => blames_pure _)
  · exact definition_blames blockBlames
  · exact blames_production "return" (blames_bind (blames_expect _) fun keyword =>
      blames_bind (blames_expectAny _) fun value => blames_pure _)
  · exact blames_bind call_blames fun parts => blames_pure _
  · exact namedStatement_blames
  · exact blames_fail _
  · exact blames_fail _
  · exact blames_bind blames_current fun token => blames_fail _

/-- A list of statements blames one of them, or what stands where a line should end. The induction
    is on the bound for the statements. -/
theorem statements_blames : Blames (statements block) := by
  have terminated : Blames (terminatedStatement block) := by
    refine blames_bind (statement_blames blockBlames) fun result => ?_
    split
    · exact blames_pure result
    · exact blames_bind lineEnd_blames fun _ => blames_pure result
  have within (bound : Nat) : Blames (statementsWithin block bound) := by
    induction bound with
    | zero => exact blames_pure []
    | succ bound ih =>
        refine blames_bind blames_skipNewlines fun _ =>
          blames_bind blames_currentKind fun kind => ?_
        split
        · exact blames_pure []
        · exact blames_pure []
        · exact blames_bind terminated fun first => blames_bind ih fun later => blames_pure _
  exact blames_bind blames_unread fun rest => within rest.length

end Compound

/-- A block within a bound blames its colon, its line break, a statement or its end. The induction
    is on the bound, which is lower for the blocks in it. -/
theorem blockWithin_blames (bound : Nat) : Blames (blockWithin bound) := by
  induction bound with
  | zero => exact blames_production "block" (blames_unexpected _)
  | succ bound ih =>
      apply blames_production
      refine blames_bind blames_currentLine fun line => blames_bind (blames_expect _) fun colon =>
        blames_bind (blames_expect _) fun newline =>
          blames_bind (statements_blames ih) fun list =>
            blames_bind blames_currentKind fun kind => ?_
      split
      · split
        · exact blames_bind (blames_fail _) fun _ => blames_bind blames_advance fun _ =>
            blames_pure _
        · exact blames_bind blames_advance fun _ => blames_pure _
      · exact blames_fail _

/-! ## Programs -/

/-- The import clause blames its word, the name of a module or of an item. -/
theorem importClause_blames : Blames importClause := by
  have checked (clause : ImportClause) :
      Blames (if clause.module.lexeme ≠ runtimeModule then do
          failOn clause.module.line .missingImport
          return clause
        else return clause : Reader ImportClause) := by
    split
    · exact blames_bind (blames_failOn _ _) fun _ => blames_pure clause
    · exact blames_pure clause
  apply blames_production
  refine blames_bind blames_currentLine fun line => blames_bind blames_currentKind fun kind => ?_
  split
  · exact blames_bind blames_advance fun _ => blames_bind (blames_expect _) fun _ =>
      blames_bind (blames_pure _) checked
  · exact blames_bind blames_advance fun _ => blames_bind (blames_expect _) fun _ =>
      blames_bind (blames_expect _) fun _ => blames_bind (blames_expectAny _) fun _ =>
        blames_bind (blames_pure _) checked
  · exact blames_bind (blames_fail _) checked

/-- Whatever a program fails with is a fault of syntax, blamed in one of its productions. This puts
    the lemmas for all of them together. -/
theorem program_blames : Blames program := by
  apply blames_production
  refine blames_bind blames_skipNewlines fun _ => blames_bind importClause_blames fun clause =>
    blames_bind lineEnd_blames fun _ => blames_bind blames_unread fun rest =>
      blames_bind (statements_blames (blockWithin_blames _)) fun body =>
        blames_bind blames_currentKind fun kind => ?_
  split
  · exact blames_fail _
  · exact blames_bind blames_get fun state => blames_pure _

end Offside.Reader

namespace Offside

/-- A token list that is no program is rejected with a fault of syntax. -/
theorem parse_blames {tokens : List Token} {events after : Array Event} {failure : Failure}
    (run : Program.parse tokens events = .error failure after) :
    Reader.Blamed ["parse"] failure := by
  simp only [Program.parse] at run
  split at run
  · rename_i reported state read
    cases run
    exact Reader.program_blames _ _ _ _ read
  · cases run

end Offside
