/-!
# Diagnostics and failures

Every phase stops at its first fault. A fault is reported as a diagnostic: the
path of phases and grammar productions that were active, the line, and a
message. A failure adds which phase gave up, and for static analysis which rule
was broken.

Each phase has its own type of faults and words their messages in one function.
This module holds what the phases share.
-/

namespace Offside

/-- A fault as it is shown. `trail` lists the active phase and productions,
    outermost first. -/
structure Diagnostic where
  trail : List String
  line : Nat
  message : String
  deriving DecidableEq, Repr

/-- The one-line form of a diagnostic: every step of the trail, then the line
    and the message. -/
def Diagnostic.render (diagnostic : Diagnostic) : String :=
  String.join (diagnostic.trail.map (· ++ " -> ")) ++
    "line " ++ toString diagnostic.line ++ ": " ++ diagnostic.message

/-- The rules of static analysis. -/
inductive Rule where
  /-- Assignment to a variable that is not declared. -/
  | undeclaredManipulation
  /-- An operand or argument that names no visible variable. -/
  | undeclaredReference
  /-- A call to a function that is neither defined nor builtin. -/
  | undeclaredFunction
  /-- An argument whose type does not fit its parameter. -/
  | argumentType
  /-- A call with the wrong number of arguments. -/
  | argumentCount
  /-- An initial value that does not fit the declared type. -/
  | declarationType
  /-- A second declaration of a name in one block. -/
  | redeclaration
  /-- A `return` that no function body encloses. -/
  | returnOutsideFunction
  /-- A definition placed inside its own body. No source text has one; only a
      tree built by hand can. -/
  | endlessDefinition
  deriving DecidableEq, Repr

/-- The name under which a rule is reported. -/
def Rule.name : Rule → String
  | undeclaredManipulation => "undeclared-manipulation"
  | undeclaredReference => "undeclared-reference"
  | undeclaredFunction => "undeclared-function"
  | argumentType => "argument-type"
  | argumentCount => "argument-count"
  | declarationType => "declaration-type"
  | redeclaration => "redeclaration"
  | returnOutsideFunction => "return-outside-function"
  | endlessDefinition => "endless-definition"

/-- Why a source does not compile. Faults of layout are syntax faults. -/
inductive Failure where
  | lexical (diagnostic : Diagnostic)
  | parse (diagnostic : Diagnostic)
  | analysis (rule : Rule) (diagnostic : Diagnostic)
  | emission (diagnostic : Diagnostic)
  deriving DecidableEq, Repr

namespace Failure

/-- What was found, and where. -/
def diagnostic : Failure → Diagnostic
  | lexical diagnostic => diagnostic
  | parse diagnostic => diagnostic
  | analysis _ diagnostic => diagnostic
  | emission diagnostic => diagnostic

/-- The broken rule, if static analysis failed. -/
def rule? : Failure → Option Rule
  | analysis rule _ => some rule
  | _ => none

/-- The heading that names the phase. -/
def heading : Failure → String
  | lexical _ => "lex error"
  | parse _ => "parse error"
  | analysis rule _ => "analysis error [" ++ rule.name ++ "]"
  | emission _ => "emission error"

/-- The one-line form of a failure. -/
def render (failure : Failure) : String :=
  failure.heading ++ ": " ++ failure.diagnostic.render

end Failure

end Offside
