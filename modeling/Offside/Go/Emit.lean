import Offside.Diagnostic
import Offside.Go.Text
import Offside.Syntax.Tree

/-!
# Emitting Go

A program becomes one Go file: the functions in the order of their definitions,
then the body as the function `main`. A placeholder leaves a blank line where its
definition stood. Emission fails at the first token that has no spelling in Go,
in the order in which the text is written.
-/

namespace Offside.Go

/-- What keeps a tree from being emitted. -/
inductive EmissionFault where
  | unrenderable (token : Token)
  deriving DecidableEq, Repr

/-- The wording of a fault. -/
def EmissionFault.message : EmissionFault → String
  | unrenderable token =>
      "cannot render " ++ token.kind.describe ++ " `" ++ token.lexeme ++ "` as Go"

/-- Emits a part of a program. It reads the statements it stands in, outermost
    first. -/
abbrev Emit := ReaderT (List String) (Except Failure)

namespace Emit

variable {α : Type}

/-- Emit with one more step on the trail. -/
def step (name : String) (emit : Emit α) : Emit α :=
  fun trail => emit (trail ++ [name])

/-- A token in Go. -/
def text (token : Token) : Emit String := do
  match spelling? token with
  | some spelling => return spelling
  | none =>
      throw (.emission ⟨← read, token.line, (EmissionFault.unrenderable token).message⟩)

mutual

/-- A value in Go. -/
def value : Value → Emit String
  | .terminal token => text token
  | .call callee arguments => do
      let name ← text callee
      return name ++ "(" ++ String.intercalate ", " (← values arguments) ++ ")"

/-- Several values in Go. -/
def values : List Value → Emit (List String)
  | [] => return []
  | first :: later => do
      let head ← value first
      return head :: (← values later)

end

/-- A call in Go. -/
def call (callee : Token) (arguments : List Value) : Emit String :=
  value (.call callee arguments)

/-- An expression in Go. -/
def expression (expression : Expression) : Emit String := do
  let left ← text expression.left
  match expression.tail with
  | none => return left
  | some (operator, right) =>
      return left ++ " " ++ (← text operator) ++ " " ++ (← text right)

/-- A condition in Go. -/
def comparison (comparison : Comparison) : Emit String := do
  let left ← expression comparison.left
  match comparison.tail with
  | none => return left
  | some (comparator, right) =>
      return left ++ " " ++ (← text comparator) ++ " " ++ (← expression right)

mutual

/-- A statement at depth `depth`. -/
def statement (depth : Nat) : Statement → Emit (List Line)
  | .declaration name type initial =>
      step "declaration" do
        let name ← text name
        let type ← text type
        let initial ← value initial
        return [.code depth ("var " ++ name ++ " " ++ type ++ " = " ++ initial)]
  | .manipulation target result =>
      step "manipulation" do
        let target ← text target
        let result ← expression result
        return [.code depth (target ++ " = " ++ result)]
  | .call callee arguments =>
      step "call" do
        return [.code depth (← call callee arguments)]
  | .returnValue keyword result =>
      step "return" do
        let keyword ← text keyword
        let result ← text result
        return [.code depth (keyword ++ " " ++ result)]
  | .forRange keyword counter start stop body =>
      step "for" do
        let keyword ← text keyword
        let counter ← text counter
        let start ← text start
        let stop ← text stop
        let inner ← block (depth + 1) body
        let clauses := counter ++ " := " ++ start ++ "; " ++ counter ++ " < " ++ stop ++ "; " ++
          counter ++ "++"
        return .code depth (keyword ++ " " ++ clauses ++ " \x7b") ::
          inner ++ [.code depth "\x7d"]
  | .whileLoop keyword condition body =>
      step "while" do
        let keyword ← text keyword
        let condition ← comparison condition
        let inner ← block (depth + 1) body
        return .code depth (keyword ++ " " ++ condition ++ " \x7b") ::
          inner ++ [.code depth "\x7d"]
  | .ifChain chain otherwise =>
      step "if" do
        let taken ← branches depth "" chain
        let untaken ←
          match otherwise with
          | none => pure []
          | some body => do
              let inner ← block (depth + 1) body
              pure (Line.code depth "\x7d else \x7b" :: inner)
        return taken ++ untaken ++ [.code depth "\x7d"]
  | .hoisted _ _ => return [.blank]

/-- The statements of a block at depth `depth`. -/
def block (depth : Nat) : Block Statement → Emit (List Line)
  | ⟨_, list⟩ => statements depth list

/-- The branches of a chain. `closing` ends the block of the branch before; the
    first branch has none. -/
def branches (depth : Nat) (closing : String) : List (Branch Statement) → Emit (List Line)
  | [] => return []
  | ⟨keyword, condition, body⟩ :: later => do
      let keyword ← text keyword
      let condition ← comparison condition
      let inner ← block (depth + 1) body
      let rest ← branches depth "\x7d " later
      return .code depth (closing ++ keyword ++ " " ++ condition ++ " \x7b") :: inner ++ rest

/-- Several statements at depth `depth`. -/
def statements (depth : Nat) : List Statement → Emit (List Line)
  | [] => return []
  | first :: later => do
      let head ← statement depth first
      return head ++ (← statements depth later)

end

/-- A parameter in Go. -/
def parameter (parameter : Parameter) : Emit String := do
  let name ← text parameter.name
  return name ++ " " ++ (← text parameter.type)

/-- A function in Go. -/
def definition (definition : Definition) : Emit (List Line) :=
  step "function" do
    let keyword ← text definition.keyword
    let name ← text definition.name
    let parameters ← definition.parameters.mapM parameter
    let returns ←
      match definition.returns with
      | none => pure ""
      | some type => do pure (" " ++ (← text type))
    let inner ← block 1 definition.body
    let header := keyword ++ " " ++ name ++ "(" ++ String.intercalate ", " parameters ++ ")"
    return .code 0 (header ++ returns ++ " \x7b") :: inner ++ [.code 0 "\x7d"]

/-- All functions, each after a blank line. -/
def definitions : List Definition → Emit (List Line)
  | [] => return []
  | first :: later => do
      let head ← definition first
      return .blank :: head ++ (← definitions later)

/-- The lines of a whole file. -/
def program (program : Program) : Emit (List Line) := do
  let functions ← definitions program.functions
  let main ← statements 1 program.body
  return .code 0 "package main" :: functions ++
    (.blank :: .code 0 "func main() \x7b" :: main ++ [.code 0 "\x7d"])

end Emit

/-- The Go file for a program. -/
def emit (program : Program) : Except Failure String :=
  return Line.renderAll (← Emit.program program ["emit"])

end Offside.Go
