import Offside.Go.Emit
import Offside.Proofs.Source.Printing

/-!
# Leaves without a spelling

A tree that was built by hand may have any token at any leaf. Emission visits all leaves but
those of the import clause, in the order in which they stand in the tree: the functions before
the body, and within a statement its own leaves and its blocks from the first field to the last.
It succeeds if every leaf has a spelling in Go, and otherwise it reports the first one that has
none.

The leaves are listed with the trail on which emission comes to them. Emission of a part of the
tree writes some of these leaves, and what emission of the whole writes is put together in the
order of its parts; that no leaf is passed over shows in the list.
-/

namespace Offside

open Go

/-- A leaf of a tree. `trail` names the phase and the statements around it, outermost first. -/
structure Leaf where
  trail : List String
  token : Token
  deriving DecidableEq, Repr

namespace Leaf

/-- The leaf cannot be written in Go. -/
def isUnspelled (leaf : Leaf) : Bool :=
  (spelling? leaf.token).isNone

/-- The failure that reports the leaf: its place, and what kind of token stands there. -/
def failure (leaf : Leaf) : Failure :=
  .emission ⟨leaf.trail, leaf.token.line,
    "cannot render " ++ leaf.token.kind.describe ++ " `" ++ leaf.token.lexeme ++ "` as Go"⟩

end Leaf

/-! ## The leaves of a tree -/

/-- Tokens that stand in the same statements. -/
def leavesAt (trail : List String) (tokens : List Token) : List Leaf :=
  tokens.map fun token => ⟨trail, token⟩

mutual

/-- The leaves of a value: a callee stands before its arguments. -/
def Value.terminals : Value → List Token
  | .terminal token => [token]
  | .call callee arguments => callee :: Value.terminalsAll arguments

def Value.terminalsAll : List Value → List Token
  | [] => []
  | value :: values => value.terminals ++ Value.terminalsAll values

end

mutual

/-- The leaves of a statement, everything inside it included. -/
def Statement.leaves (trail : List String) : Statement → List Leaf
  | .declaration name type value =>
      leavesAt (trail ++ ["declaration"]) (name :: type :: value.terminals)
  | .manipulation target value =>
      leavesAt (trail ++ ["manipulation"]) (target :: value.tokens)
  | .call callee arguments =>
      leavesAt (trail ++ ["call"]) (callee :: Value.terminalsAll arguments)
  | .returnValue keyword value => leavesAt (trail ++ ["return"]) [keyword, value]
  | .forRange keyword counter start stop body =>
      leavesAt (trail ++ ["for"]) [keyword, counter, start, stop] ++
        Block.leaves (trail ++ ["for"]) body
  | .whileLoop keyword condition body =>
      leavesAt (trail ++ ["while"]) (keyword :: condition.tokens) ++
        Block.leaves (trail ++ ["while"]) body
  | .ifChain branches otherwise =>
      Branch.leavesAll (trail ++ ["if"]) branches ++
        match otherwise with
        | none => []
        | some body => Block.leaves (trail ++ ["if"]) body
  | .hoisted _ _ => []

def Block.leaves (trail : List String) : Block Statement → List Leaf
  | ⟨_, statements⟩ => Statement.leavesAll trail statements

/-- The leaves of branches: the keyword and the condition of each stand before its block. -/
def Branch.leavesAll (trail : List String) : List (Branch Statement) → List Leaf
  | [] => []
  | ⟨keyword, condition, body⟩ :: branches =>
      leavesAt trail (keyword :: condition.tokens) ++ Block.leaves trail body ++
        Branch.leavesAll trail branches

def Statement.leavesAll (trail : List String) : List Statement → List Leaf
  | [] => []
  | statement :: statements => statement.leaves trail ++ Statement.leavesAll trail statements

end

/-- The leaves of a function before its body: the keyword, its name, the name and the type of
    each parameter, and the result. -/
def Definition.headTerminals (definition : Definition) : List Token :=
  definition.keyword :: definition.name ::
    (definition.parameters.flatMap (fun parameter => [parameter.name, parameter.type]) ++
      definition.returns.toList)

/-- The leaves of a function. -/
def Definition.leaves (trail : List String) (definition : Definition) : List Leaf :=
  leavesAt (trail ++ ["function"]) definition.headTerminals ++
    definition.body.leaves (trail ++ ["function"])

/-- The leaves of a program, in the order of emission: those of its functions, and then those of
    its body. -/
def Program.leaves (program : Program) : List Leaf :=
  program.functions.flatMap (Definition.leaves ["emit"]) ++
    Statement.leavesAll ["emit"] program.body

/-! ## Emission along the leaves -/

namespace Go.Emit

variable {α β : Type} {trail : List String}

/-- Emission on the trail succeeds if all leaves have a spelling, and otherwise reports the first
    one that has none. -/
def Writes (trail : List String) (emit : Emit α) (leaves : List Leaf) : Prop :=
  match leaves.find? Leaf.isUnspelled with
  | none => ∃ value, emit trail = .ok value
  | some leaf => emit trail = .error leaf.failure

/-- What does nothing but return a value writes no leaf. -/
theorem writes_pure (value : α) : Writes trail (pure value) [] :=
  ⟨value, rfl⟩

/-- Parts that are emitted one after another have their leaves one after another. -/
theorem Writes.bind {emit : Emit α} {next : α → Emit β} {leaves more : List Leaf}
    (first : Writes trail emit leaves) (second : ∀ value, Writes trail (next value) more) :
    Writes trail (emit >>= next) (leaves ++ more) := by
  have run : (emit >>= next) trail = Except.bind (emit trail) fun value => next value trail := rfl
  unfold Writes at first second ⊢
  rw [List.find?_append, run]
  cases found : leaves.find? Leaf.isUnspelled with
  | some leaf =>
      rw [found] at first
      simp only [Option.some_or, first]
      rfl
  | none =>
      rw [found] at first
      obtain ⟨value, written⟩ := first
      simp only [Option.none_or, written]
      exact second value

/-- What is done with the result of emission writes no further leaves. -/
theorem Writes.map {emit : Emit α} {leaves : List Leaf} (writes : Writes trail emit leaves)
    (result : α → β) : Writes trail (do return result (← emit)) leaves := by
  have last : Writes trail (emit >>= fun value => pure (result value)) (leaves ++ []) :=
    writes.bind fun value => writes_pure (result value)
  rwa [List.append_nil] at last

/-- A named step writes its leaves on the trail that has its name at the end. -/
theorem Writes.step {name : String} {emit : Emit α} {leaves : List Leaf}
    (writes : Writes (trail ++ [name]) emit leaves) : Writes trail (Emit.step name emit) leaves :=
  writes

/-- Emission of a token writes this one leaf: it succeeds if the token has a spelling, and else it
    reports the token. -/
theorem writes_text (token : Token) : Writes trail (text token) (leavesAt trail [token]) := by
  unfold Writes text
  cases spelled : spelling? token with
  | none =>
      have found : (leavesAt trail [token]).find? Leaf.isUnspelled = some ⟨trail, token⟩ := by
        simp [leavesAt, Leaf.isUnspelled, spelled]
      rw [found]
      rfl
  | some spelling =>
      have found : (leavesAt trail [token]).find? Leaf.isUnspelled = none := by
        simp [leavesAt, Leaf.isUnspelled, spelled]
      rw [found]
      exact ⟨spelling, rfl⟩

mutual

/-- Emission of a value writes its leaves, a callee before its arguments. The recursion goes through
    lists of arguments. -/
theorem writes_value :
    (value : Value) → Writes trail (Emit.value value) (leavesAt trail value.terminals)
  | .terminal token => by
      simp only [Emit.value, Value.terminals]
      exact writes_text token
  | .call callee arguments => by
      simp only [Emit.value, Value.terminals]
      exact (writes_text callee).bind fun _ => (writes_values arguments).map _

/-- Emission of several values writes the leaves of each in turn, which the recursion through calls
    needs with a single value. -/
theorem writes_values :
    (values : List Value) →
      Writes trail (Emit.values values) (leavesAt trail (Value.terminalsAll values))
  | [] => by
      simp only [Emit.values, Value.terminalsAll]
      exact writes_pure []
  | value :: values => by
      simp only [Emit.values, Value.terminalsAll, leavesAt, List.map_append]
      exact (writes_value value).bind fun _ => (writes_values values).map _

end

/-- Emission of an expression writes its operands and its operator, from left to right. -/
theorem writes_expression (value : Expression) :
    Writes trail (Emit.expression value) (leavesAt trail value.tokens) := by
  obtain ⟨left, _ | ⟨operator, right⟩⟩ := value
  · exact (writes_text left).map id
  · exact (writes_text left).bind fun _ =>
      (writes_text operator).bind fun _ => (writes_text right).map _

/-- Emission of a condition writes the leaves of both sides, with the comparator between them. -/
theorem writes_comparison (condition : Comparison) :
    Writes trail (Emit.comparison condition) (leavesAt trail condition.tokens) := by
  obtain ⟨left, _ | ⟨comparator, right⟩⟩ := condition
  · exact (writes_expression left).map id
  · simp only [Comparison.tokens, leavesAt, List.map_append]
    exact (writes_expression left).bind fun _ =>
      (writes_text comparator).bind fun _ => (writes_expression right).map _

mutual

/-- Emission of a statement writes its leaves, at any depth. The depth is only seen in the tabs,
    which cannot fail. -/
theorem writes_statement (depth : Nat) (trail : List String) :
    (statement : Statement) →
      Writes trail (Emit.statement depth statement) (statement.leaves trail)
  | .declaration name type value => by
      simp only [Emit.statement, Statement.leaves]
      exact .step ((writes_text name).bind fun _ =>
        (writes_text type).bind fun _ => (writes_value value).map _)
  | .manipulation target value => by
      simp only [Emit.statement, Statement.leaves]
      exact .step ((writes_text target).bind fun _ => (writes_expression value).map _)
  | .call callee arguments => by
      simp only [Emit.statement, Statement.leaves]
      exact .step ((writes_value (.call callee arguments)).map _)
  | .returnValue keyword value => by
      simp only [Emit.statement, Statement.leaves]
      exact .step ((writes_text keyword).bind fun _ => (writes_text value).map _)
  | .forRange keyword counter start stop body => by
      simp only [Emit.statement, Statement.leaves]
      exact .step ((writes_text keyword).bind fun _ => (writes_text counter).bind fun _ =>
        (writes_text start).bind fun _ => (writes_text stop).bind fun _ =>
          (writes_block (depth + 1) _ body).map _)
  | .whileLoop keyword condition body => by
      simp only [Emit.statement, Statement.leaves]
      exact .step ((writes_text keyword).bind fun _ => (writes_comparison condition).bind fun _ =>
        (writes_block (depth + 1) _ body).map _)
  | .ifChain branches none => by
      simp only [Emit.statement, Statement.leaves]
      exact .step ((writes_branches depth "" _ branches).bind fun _ => (writes_pure _).map _)
  | .ifChain branches (some body) => by
      simp only [Emit.statement, Statement.leaves]
      exact .step ((writes_branches depth "" _ branches).bind fun taken =>
        (writes_block (depth + 1) _ body).map fun inner =>
          taken ++ (Line.code depth "\x7d else \x7b" :: inner) ++ [Line.code depth "\x7d"])
  | .hoisted index line => by
      simp only [Emit.statement, Statement.leaves]
      exact writes_pure [Line.blank]

/-- Emission of a block writes the leaves of its statements. The line of the block is not
    written. -/
theorem writes_block (depth : Nat) (trail : List String) :
    (body : Block Statement) → Writes trail (Emit.block depth body) (body.leaves trail)
  | ⟨line, statements⟩ => by
      simp only [Emit.block, Block.leaves]
      exact writes_statements depth trail statements

/-- Emission of branches writes, for each of them, its keyword and its condition and then the leaves
    of its block. -/
theorem writes_branches (depth : Nat) (closing : String) (trail : List String) :
    (branches : List (Branch Statement)) →
      Writes trail (Emit.branches depth closing branches) (Branch.leavesAll trail branches)
  | [] => by
      simp only [Emit.branches, Branch.leavesAll]
      exact writes_pure []
  | ⟨keyword, condition, body⟩ :: branches => by
      simp only [Emit.branches, Branch.leavesAll, List.append_assoc]
      exact (writes_text keyword).bind fun _ => (writes_comparison condition).bind fun _ =>
        (writes_block (depth + 1) trail body).bind fun _ =>
          (writes_branches depth _ trail branches).map _

/-- Emission of a list of statements writes the leaves of each in turn, so a failure in one keeps
    the later ones from being visited. -/
theorem writes_statements (depth : Nat) (trail : List String) :
    (statements : List Statement) →
      Writes trail (Emit.statements depth statements) (Statement.leavesAll trail statements)
  | [] => by
      simp only [Emit.statements, Statement.leavesAll]
      exact writes_pure []
  | statement :: statements => by
      simp only [Emit.statements, Statement.leavesAll]
      exact (writes_statement depth trail statement).bind fun _ =>
        (writes_statements depth trail statements).map _

end

/-! ## Functions and programs -/

/-- Emission of parameters writes the name and the type of each, by induction on the list. -/
theorem writes_parameters (parameters : List Parameter) :
    Writes trail (parameters.mapM parameter)
      (leavesAt trail (parameters.flatMap fun parameter => [parameter.name, parameter.type])) := by
  induction parameters with
  | nil =>
      rw [List.mapM_nil]
      exact writes_pure []
  | cons first later ih =>
      have written : Writes trail (parameter first) (leavesAt trail [first.name, first.type]) :=
        (writes_text first.name).bind fun _ => (writes_text first.type).map _
      rw [List.mapM_cons, List.flatMap_cons, leavesAt, List.map_append]
      exact written.bind fun _ => ih.map _

/-- Emission of a function writes its leaves: those of the header first, and then those of the
    body. -/
theorem writes_definition (trail : List String) (definition : Definition) :
    Writes trail (Emit.definition definition) (definition.leaves trail) := by
  obtain ⟨keyword, name, parameters, returns, body⟩ := definition
  unfold Emit.definition
  apply Writes.step
  simp only [Definition.leaves, Definition.headTerminals, leavesAt, List.map_cons,
    List.map_append, List.cons_append, List.append_assoc]
  refine (writes_text keyword).bind fun _ => (writes_text name).bind fun _ =>
    (writes_parameters parameters).bind fun _ => ?_
  cases returns with
  | none => exact (writes_pure "").bind fun _ => (writes_block 1 _ body).map _
  | some type =>
      exact (writes_text type).bind fun _ =>
        (writes_pure _).bind fun _ => (writes_block 1 _ body).map _

/-- Emission of all functions writes their leaves in the order of the functions, by induction on the
    list. -/
theorem writes_definitions (trail : List String) (definitions : List Definition) :
    Writes trail (Emit.definitions definitions)
      (definitions.flatMap (Definition.leaves trail)) := by
  induction definitions with
  | nil => exact writes_pure []
  | cons first later ih =>
      rw [Emit.definitions, List.flatMap_cons]
      exact (writes_definition trail first).bind fun _ => ih.map _

/-- Emission of a program writes all of its leaves but those of the import clause. -/
theorem writes_program (program : Program) :
    Writes ["emit"] (Emit.program program) program.leaves :=
  (writes_definitions _ program.functions).bind fun _ =>
    (writes_statements 1 _ program.body).map _

end Go.Emit

/-! ## The first leaf without a spelling -/

/-- No leaf without a spelling is found exactly when every leaf has one. -/
theorem find?_isUnspelled_none {leaves : List Leaf} :
    leaves.find? Leaf.isUnspelled = none ↔ ∀ leaf ∈ leaves, (spelling? leaf.token).isSome := by
  simp [Leaf.isUnspelled, Option.isSome_iff_ne_none]

/-- A leaf without a spelling is found exactly when it is the first of its kind: all leaves before
    it have a spelling. -/
theorem find?_isUnspelled_some {leaves : List Leaf} {leaf : Leaf} :
    leaves.find? Leaf.isUnspelled = some leaf ↔
      ∃ earlier later, leaves = earlier ++ leaf :: later ∧
        (∀ before ∈ earlier, (spelling? before.token).isSome) ∧ spelling? leaf.token = none := by
  rw [List.find?_eq_some_iff_append]
  simp only [Leaf.isUnspelled, Option.isNone_iff_eq_none, Bool.not_eq_true',
    Option.isNone_eq_false_iff]
  constructor
  · rintro ⟨unspelled, earlier, later, split, spelled⟩
    exact ⟨earlier, later, split, spelled, unspelled⟩
  · rintro ⟨earlier, later, split, spelled, unspelled⟩
    exact ⟨unspelled, earlier, later, split, spelled⟩

/-- A program whose leaves all have a spelling is emitted, whether or not it was read from a
    source. -/
theorem emit_of_spelled {program : Program}
    (found : program.leaves.find? Leaf.isUnspelled = none) :
    ∃ text, Go.emit program = .ok text := by
  have written := Go.Emit.writes_program program
  rw [Go.Emit.Writes, found] at written
  obtain ⟨lines, written⟩ := written
  refine ⟨Line.renderAll lines, ?_⟩
  rw [Go.emit, written]
  rfl

/-- A program with a leaf that has none is not, and the failure names the first such leaf with its
    place. -/
theorem emit_of_unspelled {program : Program} {leaf : Leaf}
    (found : program.leaves.find? Leaf.isUnspelled = some leaf) :
    Go.emit program = .error leaf.failure := by
  have written := Go.Emit.writes_program program
  rw [Go.Emit.Writes, found] at written
  rw [Go.emit, written]
  rfl

/-- Emission succeeds exactly if every leaf has a spelling. It fails with exactly one failure if
    one has none, and reports the first of these leaves: the line and the trail on which it
    stands, what kind of token it is, and its text. The import clause has no leaves. -/
theorem emit_reports_first (program : Program) :
    ((∃ text, Go.emit program = .ok text) ↔
      ∀ leaf ∈ program.leaves, (spelling? leaf.token).isSome) ∧
    ∀ failure, Go.emit program = .error failure ↔
      ∃ earlier leaf later, program.leaves = earlier ++ leaf :: later ∧
        (∀ before ∈ earlier, (spelling? before.token).isSome) ∧
        spelling? leaf.token = none ∧
        failure = .emission ⟨leaf.trail, leaf.token.line,
          "cannot render " ++ leaf.token.kind.describe ++ " `" ++ leaf.token.lexeme ++
            "` as Go"⟩ := by
  cases found : program.leaves.find? Leaf.isUnspelled with
  | none =>
      have spelled := find?_isUnspelled_none.mp found
      obtain ⟨text, emitted⟩ := emit_of_spelled found
      refine ⟨⟨fun _ => spelled, fun _ => ⟨text, emitted⟩⟩, fun failure => ⟨fun failed => ?_, ?_⟩⟩
      · rw [emitted] at failed
        cases failed
      · rintro ⟨earlier, leaf, later, split, first, unspelled, -⟩
        have other := find?_isUnspelled_some.mpr ⟨earlier, later, split, first, unspelled⟩
        rw [found] at other
        cases other
  | some leaf =>
      have emitted := emit_of_unspelled found
      refine ⟨⟨?_, fun spelled => ?_⟩, fun failure => ⟨fun failed => ?_, ?_⟩⟩
      · rintro ⟨text, written⟩
        rw [emitted] at written
        cases written
      · rw [find?_isUnspelled_none.mpr spelled] at found
        cases found
      · obtain ⟨earlier, later, split, first, unspelled⟩ := find?_isUnspelled_some.mp found
        rw [emitted] at failed
        cases failed
        exact ⟨earlier, leaf, later, split, first, unspelled, rfl⟩
      · rintro ⟨earlier, other, later, split, first, unspelled, rfl⟩
        have same := find?_isUnspelled_some.mpr ⟨earlier, later, split, first, unspelled⟩
        rw [emitted, Option.some.inj (found.symm.trans same)]
        rfl

/-- A colon for an operator in a function, and one for a target before it in the body. -/
example :
    let word (kind : Kind) (lexeme : String) (line : Nat) : Token := ⟨kind, lexeme, line⟩
    let name (line : Nat) : Token := word .identifier "x" line
    let sum : Expression := ⟨name 3, some (word .colon ":" 3, name 3)⟩
    Go.emit ⟨⟨name 1, none, 1⟩, [.manipulation (word .colon ":" 2) ⟨name 2, none⟩, .hoisted 0 3],
      [⟨word .defWord "def" 3, name 3, [], none, ⟨3, [.manipulation (name 3) sum]⟩⟩]⟩ =
        .error (.emission ⟨["emit", "function", "manipulation"], 3,
          "cannot render `:` `:` as Go"⟩) := by
  rfl

end Offside
