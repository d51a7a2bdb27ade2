import Offside.Token

/-!
# Syntax trees

A program is an import clause, a body, and the functions defined anywhere in it.
Definitions do not stand in the body: each is moved to the list of functions and
leaves a placeholder, `Statement.hoisted`, with its index in that list.

All leaves are tokens. The types admit more trees than the grammar does: any
kind of token may stand at any leaf, blocks and chains may be empty, and an index
may name no function. Later phases are defined on all of them.
-/

namespace Offside

/-- One operand, or two joined by an operator. -/
structure Expression where
  left : Token
  tail : Option (Token × Token)
  deriving DecidableEq, Repr

/-- The operands, from left to right. -/
def Expression.operands (expression : Expression) : List Token :=
  expression.left :: (expression.tail.map Prod.snd).toList

/-- A condition: one expression, or two joined by a comparator. -/
structure Comparison where
  left : Expression
  tail : Option (Token × Expression)
  deriving DecidableEq, Repr

/-- The compared expressions, from left to right. -/
def Comparison.expressions (comparison : Comparison) : List Expression :=
  comparison.left :: (comparison.tail.map Prod.snd).toList

/-- An initial value or an argument. -/
inductive Value where
  | terminal (token : Token)
  | call (callee : Token) (arguments : List Value)
  deriving Repr

/-- The line on which a value starts. -/
def Value.line : Value → Nat
  | terminal token => token.line
  | call callee _ => callee.line

/-- An indented list of statements. `line` is the line of the colon before
    it. -/
structure Block (α : Type) where
  line : Nat
  statements : List α
  deriving Repr

/-- A condition with the block it guards. -/
structure Branch (α : Type) where
  keyword : Token
  condition : Comparison
  body : Block α
  deriving Repr

/-- A statement. -/
inductive Statement where
  /-- Count `counter` from `start` up to, but excluding, `stop`. -/
  | forRange (keyword counter start stop : Token) (body : Block Statement)
  | whileLoop (keyword : Token) (condition : Comparison) (body : Block Statement)
  /-- Branches tried in order, and the block for when none is taken. -/
  | ifChain (branches : List (Branch Statement)) (otherwise : Option (Block Statement))
  | declaration (name type : Token) (value : Value)
  | manipulation (target : Token) (value : Expression)
  | call (callee : Token) (arguments : List Value)
  | returnValue (keyword value : Token)
  /-- Where the function at `index` was defined, on line `line`. -/
  | hoisted (index line : Nat)
  deriving Repr

namespace Statement

/-- The line on which a statement starts. A chain without branches stands
    nowhere. -/
def line : Statement → Nat
  | forRange keyword _ _ _ _ => keyword.line
  | whileLoop keyword _ _ => keyword.line
  | ifChain branches _ => (branches.head?.map (fun branch => branch.keyword.line)).getD 0
  | declaration name _ _ => name.line
  | manipulation target _ => target.line
  | call callee _ => callee.line
  | returnValue keyword _ => keyword.line
  | hoisted _ line => line

/-- Statements that end with a block are separated from what follows by the end
    of that block, not by a line break. -/
def endsWithBlock : Statement → Bool
  | forRange .. | whileLoop .. | ifChain .. | hoisted .. => true
  | _ => false

end Statement

/-- A parameter of a function. -/
structure Parameter where
  name : Token
  type : Token
  deriving DecidableEq, Repr

/-- A function definition. `returns` is missing when nothing is returned. -/
structure Definition where
  keyword : Token
  name : Token
  parameters : List Parameter
  returns : Option Token
  body : Block Statement
  deriving Repr

/-- The clause that imports the runtime. `item` is missing when the module is
    imported as a whole. -/
structure ImportClause where
  module : Token
  item : Option Token
  line : Nat
  deriving DecidableEq, Repr

/-- A parsed program. -/
structure Program where
  importClause : ImportClause
  body : List Statement
  functions : List Definition
  deriving Repr

mutual

/-- A statement at depth `depth`, followed by everything inside it. -/
def Statement.outline (depth : Nat) : Statement → List (Nat × Statement)
  | .forRange keyword counter start stop body =>
      (depth, .forRange keyword counter start stop body) :: Block.outline (depth + 1) body
  | .whileLoop keyword condition body =>
      (depth, .whileLoop keyword condition body) :: Block.outline (depth + 1) body
  | .ifChain branches otherwise =>
      (depth, .ifChain branches otherwise) ::
        (Branch.outlineAll (depth + 1) branches ++
          match otherwise with
          | none => []
          | some body => Block.outline (depth + 1) body)
  | statement => [(depth, statement)]

/-- The statements of a block at depth `depth`, each with everything inside
    it. -/
def Block.outline (depth : Nat) : Block Statement → List (Nat × Statement)
  | ⟨_, statements⟩ => Statement.outlineAll depth statements

/-- The blocks of all branches, in order. -/
def Branch.outlineAll (depth : Nat) : List (Branch Statement) → List (Nat × Statement)
  | [] => []
  | ⟨_, _, body⟩ :: branches => Block.outline depth body ++ Branch.outlineAll depth branches

/-- Several statements of one list. -/
def Statement.outlineAll (depth : Nat) : List Statement → List (Nat × Statement)
  | [] => []
  | statement :: statements =>
      statement.outline depth ++ Statement.outlineAll depth statements

end

/-- All statements in preorder with their depths: the body, then the bodies of
    the functions in list order, one level deep. -/
def Program.outline (program : Program) : List (Nat × Statement) :=
  Statement.outlineAll 0 program.body ++
    program.functions.flatMap (fun definition => definition.body.outline 1)

end Offside
