import Offside.Builtin
import Offside.Event
import Offside.Syntax.Tree
import Offside.Typing.Environment

/-!
# Static analysis

A program is checked in one walk that follows the source. Every name has to be
declared before it is used, every initial value and argument has to fit its type,
and no name is declared twice in one block.

A statement is checked in an environment and yields the environment for the
statement after it. Inside a block the environment grows with the block's
declarations; what follows the block sees none of them, because the environment
of the block is dropped at its end.

A definition is checked where its placeholder stands: its own body sees the
functions visible there and itself, its parameters, and no variable from outside.
Trees built by hand may place a definition inside its own body. The number of
definitions entered inside one another is therefore bounded, by a number that no
walk that ends can reach.
-/

namespace Offside

/-- What a program breaks a rule with. -/
inductive TypingFault where
  | undeclaredTarget (name : String)
  | undeclaredVariable (name : String)
  | undeclaredFunction (name : String)
  /-- A placeholder without a function. -/
  | missingDefinition (index : Nat)
  | argumentCount (callee : String) (expected received : Nat)
  /-- Positions are counted from one. -/
  | argumentType (position : Nat) (callee : String) (expected actual : TypeName)
  | declarationType (name : String) (declared actual : TypeName)
  | redeclaration (name : String) (existing : TypeName)
  | returnOutsideFunction
  | endlessDefinition (index : Nat)
  deriving DecidableEq, Repr

namespace TypingFault

/-- The rule that a fault breaks. -/
def rule : TypingFault → Rule
  | undeclaredTarget _ => .undeclaredManipulation
  | undeclaredVariable _ => .undeclaredReference
  | undeclaredFunction _ => .undeclaredFunction
  | missingDefinition _ => .undeclaredFunction
  | argumentCount .. => .argumentCount
  | argumentType .. => .argumentType
  | declarationType .. => .declarationType
  | redeclaration .. => .redeclaration
  | returnOutsideFunction => .returnOutsideFunction
  | endlessDefinition _ => .endlessDefinition

/-- The wording of a fault. -/
def message : TypingFault → String
  | undeclaredTarget name => "assignment to undeclared variable `" ++ name ++ "`"
  | undeclaredVariable name => "use of undeclared variable `" ++ name ++ "`"
  | undeclaredFunction name => "call to undeclared function `" ++ name ++ "`"
  | missingDefinition index => "no hoisted function at index " ++ toString index
  | argumentCount callee expected received =>
      "function `" ++ callee ++ "` expects " ++ toString expected ++
        " argument(s) but received " ++ toString received
  | argumentType position callee expected actual =>
      "argument " ++ toString position ++ " of `" ++ callee ++ "`: expected `" ++
        expected ++ "`, got `" ++ actual ++ "`"
  | declarationType name declared actual =>
      "variable `" ++ name ++ "` is declared as `" ++ declared ++
        "` but initialized with `" ++ actual ++ "`"
  | redeclaration name existing =>
      "variable `" ++ name ++ "` is already declared as `" ++ existing ++ "` in this block"
  | returnOutsideFunction => "`return` outside of a function body"
  | endlessDefinition index =>
      "the function at index " ++ toString index ++ " is defined inside itself"

end TypingFault

/-- Where in a program a check takes place. -/
structure Site where
  /-- The statements and expressions around it, outermost first. -/
  trail : List String
  /-- Whether a function body encloses it. -/
  inFunction : Bool

/-- Checks a part of a program. -/
abbrev Check := ReaderT Site Traced

namespace Check

variable {α : Type}

/-- Check with one more step on the trail. -/
def step (name : String) (check : Check α) : Check α :=
  fun site => check { site with trail := site.trail ++ [name] }

/-- Report one event. -/
def report (event : Event) : Check Unit :=
  fun _ => Traced.report event

/-- Give up with a fault on a line. -/
def fail (line : Nat) (fault : TypingFault) : Check α := do
  throw (.analysis fault.rule ⟨(← read).trail, line, fault.message⟩)

/-- The static type of a token used as a value. Every token that is no literal
    is taken for a name. -/
def terminalType (environment : Environment) (token : Token) : Check StaticType :=
  match token.kind with
  | .intLiteral => return .intLiteral
  | .stringLiteral => return .named .string
  | .boolLiteral => return .named .bool
  | .nullLiteral => return .named .null
  | _ =>
      match environment.binding? token.lexeme with
      | some binding => return .named binding.type
      | none => fail token.line (.undeclaredVariable token.lexeme)

/-- An operand that is a name has to stand for a variable. -/
def reference (environment : Environment) (token : Token) : Check Unit := do
  if token.isIdentifier ∧ (environment.binding? token.lexeme).isNone then
    fail token.line (.undeclaredVariable token.lexeme)

/-- Whether a value of type `actual` may be bound to `expected`. A value that is
    widened is reported. -/
def accepts (actual : StaticType) (expected : TypeName) : Check Bool := do
  let verdict := actual.compatibility expected
  if verdict = .widened then report (.widened actual.name expected)
  return verdict.isOk

/-- The signature behind a callee. The kind of the token decides whether it is a
    builtin. -/
def signatureOf (environment : Environment) (callee : Token) : Check Signature :=
  match Builtin.ofKind? callee.kind with
  | some builtin => return builtin.signature
  | none =>
      match environment.signature? callee.lexeme with
      | some signature => return signature
      | none => fail callee.line (.undeclaredFunction callee.lexeme)

/-- The result type of a call with `count` arguments, where `arguments` checks
    them against the types of the parameters. -/
def callResult (environment : Environment) (callee : Token) (count : Nat)
    (arguments : List TypeName → Check Unit) : Check StaticType := do
  let signature ← signatureOf environment callee
  if count ≠ signature.parameters.length then
    fail callee.line (.argumentCount callee.lexeme signature.parameters.length count)
  arguments signature.parameters
  return .named signature.returns

mutual

/-- The static type of a value, whose parts are checked on the way. -/
def valueType (environment : Environment) : Value → Check StaticType
  | .terminal token => terminalType environment token
  | .call callee arguments =>
      step "call"
        (callResult environment callee arguments.length
          (fun expected => argumentsFit environment callee.lexeme 1 arguments expected))

/-- Check arguments against the types of the parameters, in order. `position` is
    the place of the first of them. -/
def argumentsFit (environment : Environment) (callee : String) (position : Nat) :
    List Value → List TypeName → Check Unit
  | argument :: arguments, expected :: parameters => do
      let actual ← valueType environment argument
      if ← accepts actual expected then
        argumentsFit environment callee (position + 1) arguments parameters
      else fail argument.line (.argumentType position callee expected actual.name)
  | _, _ => return ()

end

/-- The operands of an expression. -/
def expression (environment : Environment) (expression : Expression) : Check Unit :=
  step "expression" (expression.operands.forM (reference environment))

/-- The expressions of a condition. -/
def comparison (environment : Environment) (comparison : Comparison) : Check Unit :=
  step "comparison" (comparison.expressions.forM (Check.expression environment))

/-- A declaration. The name is bound after its value has been checked, so the
    value cannot refer to it. -/
def declaration (environment : Environment) (name type : Token) (value : Value) :
    Check Environment := do
  if let some existing := environment.declaredHere? name.lexeme then
    fail name.line (.redeclaration name.lexeme existing.type)
  let actual ← valueType environment value
  if ← accepts actual type.lexeme then
    return environment.declareVariable ⟨name.lexeme, type.lexeme⟩
  else fail name.line (.declarationType name.lexeme type.lexeme actual.name)

/-- An assignment. Its value is not matched with the type of its target. -/
def manipulation (environment : Environment) (target : Token) (value : Expression) :
    Check Unit := do
  if (environment.binding? target.lexeme).isNone then
    fail target.line (.undeclaredTarget target.lexeme)
  expression environment value

/-- The result of a function. -/
def returnValue (environment : Environment) (keyword value : Token) : Check Unit := do
  if !(← read).inFunction then fail keyword.line .returnOutsideFunction
  reference environment value

/-- Run a check inside a block that starts out with the variables `bindings`. Leaving the
    block is reported whether or not the check succeeds. -/
def inBlock (environment : Environment) (bindings : List Binding)
    (check : Environment → Check Environment) : Check Unit := do
  let inner := environment.enter bindings
  report (.enteredScope inner.depth)
  let _ ← tryCatch (check inner) fun failure => do
    report (.leftScope environment.depth)
    throw failure
  report (.leftScope environment.depth)

section Statements

/-! Statements are checked relative to `hoisted`, which says how a placeholder
with an index and a line is checked. -/

variable (hoisted : Nat → Nat → Environment → Check Environment)

mutual

/-- Check a statement, and give the environment for what follows it. -/
def statement (environment : Environment) : Statement → Check Environment
  | .declaration name type value =>
      step "declaration" (declaration environment name type value)
  | .manipulation target value => do
      step "manipulation" (manipulation environment target value)
      return environment
  | .call callee arguments => do
      let _ ← step "call"
        (callResult environment callee arguments.length
          (argumentsFit environment callee.lexeme 1 arguments))
      return environment
  | .forRange _ counter start stop body => do
      step "for" do
        reference environment start
        reference environment stop
        inBlock environment [⟨counter.lexeme, .int⟩] fun inner => block inner body
      return environment
  | .whileLoop _ condition body => do
      step "while" do
        comparison environment condition
        inBlock environment [] fun inner => block inner body
      return environment
  | .ifChain branchList otherwise => do
      step "if" do
        branches environment branchList
        match otherwise with
        | none => return ()
        | some body => inBlock environment [] fun inner => block inner body
      return environment
  | .returnValue keyword value => do
      step "return" (returnValue environment keyword value)
      return environment
  | .hoisted index line => step "function" (hoisted index line environment)

/-- Check the statements of a block from its first to its last. -/
def block (environment : Environment) : Block Statement → Check Environment
  | ⟨_, list⟩ => statements environment list

/-- Check the branches of a chain, each in a block of its own. -/
def branches (environment : Environment) : List (Branch Statement) → Check Unit
  | [] => return ()
  | ⟨_, condition, body⟩ :: later => do
      comparison environment condition
      inBlock environment [] fun inner => block inner body
      branches environment later

/-- Check several statements, each in the environment that the one before it
    leaves. -/
def statements (environment : Environment) : List Statement → Check Environment
  | [] => return environment
  | first :: later => do
      let next ← statement environment first
      statements next later

end

end Statements

end Check

/-- The signature of a definition. -/
def Definition.signature (definition : Definition) : Signature where
  name := definition.name.lexeme
  parameters := definition.parameters.map (fun parameter => parameter.type.lexeme)
  returns := (definition.returns.map Token.lexeme).getD TypeName.null

/-- The variables that a function body starts out with. -/
def Definition.bindings (definition : Definition) : List Binding :=
  definition.parameters.map fun parameter => ⟨parameter.name.lexeme, parameter.type.lexeme⟩

namespace Check

/-- Declare the function of a placeholder and check its body, entering at most
    `bound` definitions inside one another. -/
def definition (functions : List Definition) :
    Nat → Nat → Nat → Environment → Check Environment
  | 0, index, line, _ => fail line (.endlessDefinition index)
  | bound + 1, index, line, environment =>
      match functions[index]? with
      | none => fail line (.missingDefinition index)
      | some definition => do
          let declared := environment.declareFunction definition.signature
          let isolated := Environment.seeded [] declared.visibleFunctions
          withReader (fun site => { site with inFunction := true }) do
            inBlock isolated definition.bindings fun inner =>
              block (Check.definition functions bound) inner definition.body
          return declared

end Check

/-- A bound on how many definitions a walk that ends enters inside one another.

    A definition whose body is accepted has all definitions below it accepted, so
    none of them contains itself. Hence a walk that enters a definition inside
    itself can only end with a fault, and until then it follows one chain of
    definitions round a cycle, leaving it only for definitions that contain no
    cycle. After the first round the functions visible at each point of the cycle
    no longer change, so a fault comes in the first two rounds or never. The chain
    up to there has at most two entries for each definition, and what leaves it
    has at most one more. -/
def Program.definitionBound (program : Program) : Nat :=
  3 * program.functions.length + 1

/-- Check a program whose outermost frame starts out with the given names. -/
def Program.analyze (program : Program) (bindings : List Binding)
    (functions : List Signature) : Traced Unit := do
  let hoisted := Check.definition program.functions program.definitionBound
  let _ ← Check.statements hoisted (.seeded bindings functions) program.body
    ⟨["analyze"], false⟩
  Traced.report (.analyzed program.body.length program.functions.length)

end Offside
