import Offside.Proofs.Typing.Agreement

/-!
# Renaming

Variables and functions are looked up apart from one another, and only by comparing names. So
static analysis does not care which names a program uses: with new names for its variables, and
other new names for its functions, it is accepted or rejected as before. Only the wording of a
fault shows the names.

What is renamed is decided by the place where a token stands. A variable is named by a
declaration, a parameter, a loop or an assignment, and by every operand and argument that is no
literal. A function is named by its definition, and by every callee that is no builtin. Names
of types, and the import clause, stay as they are.

The two walks go side by side. The environments differ by the renaming, so every lookup finds
what it found before, renamed.
-/

namespace Offside

/-- New names for the variables, and for the functions. Different names stay different. -/
structure Renaming where
  variableName : String → String
  functionName : String → String
  variableName_injective : Function.Injective variableName
  functionName_injective : Function.Injective functionName

/-- The token with another text. -/
def Token.renamed (newName : String → String) (token : Token) : Token :=
  { token with lexeme := newName token.lexeme }

variable (names : Renaming)

namespace Renaming

/-- A token used as a value: a literal, or the name of a variable. -/
def operand (token : Token) : Token :=
  if token.kind ∈ Reader.literals then token else token.renamed names.variableName

/-- A token that is called: a builtin, or the name of a function. -/
def callee (token : Token) : Token :=
  if (Builtin.ofKind? token.kind).isSome then token else token.renamed names.functionName

/-- A new name leaves the kind of an operand alone, and with it the way in which it is checked. -/
theorem operand_kind (token : Token) : (names.operand token).kind = token.kind := by
  unfold operand
  split <;> rfl

/-- A new name leaves the line of an operand alone, so faults are met on the same lines. -/
theorem operand_line (token : Token) : (names.operand token).line = token.line := by
  unfold operand
  split <;> rfl

/-- A new name leaves the kind of a callee alone, and with it whether it is a builtin function. -/
theorem callee_kind (token : Token) : (names.callee token).kind = token.kind := by
  unfold callee
  split <;> rfl

/-- A new name leaves the line of a callee alone, so faults are met on the same lines. -/
theorem callee_line (token : Token) : (names.callee token).line = token.line := by
  unfold callee
  split <;> rfl

end Renaming

/-! ## Renamed programs -/

/-- Both operands get their new names. -/
def Expression.rename (expression : Expression) : Expression where
  left := names.operand expression.left
  tail := expression.tail.map fun tail => (tail.1, names.operand tail.2)

def Comparison.rename (comparison : Comparison) : Comparison where
  left := comparison.left.rename names
  tail := comparison.tail.map fun tail => (tail.1, tail.2.rename names)

mutual

/-- A value with the new names of its variables and functions. -/
def Value.rename : Value → Value
  | .terminal token => .terminal (names.operand token)
  | .call callee arguments => .call (names.callee callee) (Value.renameAll arguments)

def Value.renameAll : List Value → List Value
  | [] => []
  | value :: values => value.rename :: Value.renameAll values

end

mutual

/-- A statement with the new names, everything inside it included. -/
def Statement.rename : Statement → Statement
  | .forRange keyword counter start stop body =>
      .forRange keyword (counter.renamed names.variableName) (names.operand start)
        (names.operand stop) (Block.rename body)
  | .whileLoop keyword condition body =>
      .whileLoop keyword (condition.rename names) (Block.rename body)
  | .ifChain branches otherwise =>
      .ifChain (Branch.renameAll branches)
        (match otherwise with
        | none => none
        | some body => some (Block.rename body))
  | .declaration name type value =>
      .declaration (name.renamed names.variableName) type (value.rename names)
  | .manipulation target value =>
      .manipulation (target.renamed names.variableName) (value.rename names)
  | .call callee arguments =>
      .call (names.callee callee) (Value.renameAll names arguments)
  | .returnValue keyword value => .returnValue keyword (names.operand value)
  | .hoisted index line => .hoisted index line

def Block.rename : Block Statement → Block Statement
  | ⟨line, statements⟩ => ⟨line, Statement.renameAll statements⟩

def Branch.renameAll : List (Branch Statement) → List (Branch Statement)
  | [] => []
  | ⟨keyword, condition, body⟩ :: branches =>
      ⟨keyword, condition.rename names, Block.rename body⟩ :: Branch.renameAll branches

def Statement.renameAll : List Statement → List Statement
  | [] => []
  | statement :: statements => statement.rename :: Statement.renameAll statements

end

/-- The name of a parameter is the name of a variable. -/
def Parameter.rename (parameter : Parameter) : Parameter :=
  { parameter with name := parameter.name.renamed names.variableName }

def Definition.rename (definition : Definition) : Definition :=
  { definition with
    name := definition.name.renamed names.functionName
    parameters := definition.parameters.map (Parameter.rename names)
    body := definition.body.rename names }

/-- A program with new names. -/
def Program.rename (program : Program) : Program :=
  { program with
    body := Statement.renameAll names program.body
    functions := program.functions.map (Definition.rename names) }

/-! ## Renamed environments -/

def Binding.rename (binding : Binding) : Binding :=
  { binding with name := names.variableName binding.name }

def Signature.rename (signature : Signature) : Signature :=
  { signature with name := names.functionName signature.name }

def Frame.rename (frame : Frame) : Frame where
  bindings := frame.bindings.map (Binding.rename names)
  functions := frame.functions.map (Signature.rename names)

/-- An environment with new names. -/
def Environment.rename (environment : Environment) : Environment where
  innermost := environment.innermost.rename names
  enclosing := environment.enclosing.map (Frame.rename names)

namespace Environment

variable (environment : Environment)

/-- The frames of a renamed environment are the renamed frames, from the innermost outwards. -/
theorem frames_rename :
    (environment.rename names).frames = environment.frames.map (Frame.rename names) := rfl

/-- A variable may be declared before the renaming or after it, under its new name. -/
theorem declareVariable_rename (binding : Binding) :
    (environment.rename names).declareVariable (binding.rename names) =
      (environment.declareVariable binding).rename names := by
  simp [declareVariable, rename, Frame.rename]

/-- A function may be declared before the renaming or after it, under its new name. -/
theorem declareFunction_rename (signature : Signature) :
    (environment.rename names).declareFunction (signature.rename names) =
      (environment.declareFunction signature).rename names := by
  simp [declareFunction, rename, Frame.rename]

/-- The functions that are visible after the renaming are those from before under their new
    names. -/
theorem visibleFunctions_rename :
    (environment.rename names).visibleFunctions =
      environment.visibleFunctions.map (Signature.rename names) := by
  simp only [visibleFunctions, frames_rename, ← List.map_reverse, List.flatMap_map,
    List.map_flatMap]
  rfl

/-- A list has a variable of a name exactly if the renamed list has one of the new name. -/
theorem find?_bindings_rename (bindings : List Binding) (name : String) :
    (bindings.map (Binding.rename names)).find? (fun binding =>
        binding.name == names.variableName name) =
      (bindings.find? fun binding => binding.name == name).map (Binding.rename names) := by
  rw [List.find?_map]
  congr 2
  funext binding
  exact names.variableName_injective.beq_eq

/-- A function is found under its new name where it was found under the old one, since different
    names stay different. -/
theorem find?_functions_rename (functions : List Signature) (name : String) :
    (functions.map (Signature.rename names)).find? (fun signature =>
        signature.name == names.functionName name) =
      (functions.find? fun signature => signature.name == name).map (Signature.rename names) := by
  rw [List.find?_map]
  congr 2
  funext signature
  exact names.functionName_injective.beq_eq

/-- A variable of the innermost frame is found under its new name where it was found under the old
    one. -/
theorem declaredHere?_rename (name : String) :
    (environment.rename names).declaredHere? (names.variableName name) =
      (environment.declaredHere? name).map (Binding.rename names) :=
  find?_bindings_rename names _ name

/-- A new name stands for the renamed variable that the name stood for. -/
theorem binding?_rename (name : String) :
    (environment.rename names).binding? (names.variableName name) =
      (environment.binding? name).map (Binding.rename names) := by
  rw [binding?, binding?, frames_rename, List.findSome?_map, List.map_findSome?]
  congr 1
  funext frame
  simp only [Function.comp, Frame.rename, ← List.map_reverse]
  exact find?_bindings_rename names _ name

/-- A new name stands for the renamed function that the name stood for. -/
theorem signature?_rename (name : String) :
    (environment.rename names).signature? (names.functionName name) =
      (environment.signature? name).map (Signature.rename names) := by
  rw [signature?, signature?, frames_rename, List.findSome?_map, List.map_findSome?]
  congr 1
  funext frame
  simp only [Function.comp, Frame.rename, ← List.map_reverse]
  exact find?_functions_rename names _ name

end Environment

namespace Check

variable {α β : Type} {same : α → β → Prop}

/-! ## Two walks -/

/-- The failures break one rule at one place. They may be worded differently. -/
def FaultedTogether (failure other : Failure) : Prop :=
  ∃ rule trail line message otherMessage,
    failure = .analysis rule ⟨trail, line, message⟩ ∧
      other = .analysis rule ⟨trail, line, otherMessage⟩

/-- The checks have related results, or break one rule at one place. -/
abbrev Together (same : α → β → Prop) (check : Check α) (other : Check β) : Prop :=
  Agree (fun _ => FaultedTogether) same check other

/-- Faults that break one rule on one line are met together, however they are worded. -/
theorem together_fail (line : Nat) {fault other : TypingFault} (rules : fault.rule = other.rule) :
    Together same (fail line fault) (fail line other) :=
  fun site => Traced.agree_throw
    ⟨fault.rule, site.trail, line, fault.message, other.message, rfl, by rw [rules]⟩

/-- Checks that break one rule together do so inside steps of one name. -/
theorem together_step (name : String) {check : Check α} {other : Check β}
    (together : Together same check other) :
    Together same (step name check) (step name other) :=
  fun _ => together _

/-- The environments are one before and after the renaming. -/
abbrev Renamed (environment other : Environment) : Prop :=
  other = environment.rename names

variable (environment : Environment)

/-! ## Values -/

/-- A literal has its type in every environment, so there is nothing to rename in it. -/
theorem terminalType_literal {token : Token} (isLiteral : token.kind ∈ Reader.literals) :
    ∃ type, ∀ environment, terminalType environment token = pure type := by
  simp only [Reader.literals, List.mem_cons, List.not_mem_nil, or_false] at isLiteral
  rcases isLiteral with isBool | isNumber | isString | isNull
  · exact ⟨.named .bool, fun environment => by simp only [terminalType, isBool]⟩
  · exact ⟨.intLiteral, fun environment => by simp only [terminalType, isNumber]⟩
  · exact ⟨.named .string, fun environment => by simp only [terminalType, isString]⟩
  · exact ⟨.named .null, fun environment => by simp only [terminalType, isNull]⟩

/-- What is no literal has the type that its name was declared with. -/
theorem terminalType_name {token : Token} (noLiteral : token.kind ∉ Reader.literals) :
    terminalType environment token =
      match environment.binding? token.lexeme with
      | some binding => return .named binding.type
      | none => fail token.line (.undeclaredVariable token.lexeme) := by
  simp only [Reader.literals, List.mem_cons, List.not_mem_nil, or_false, not_or] at noLiteral
  obtain ⟨noBool, noNumber, noString, noNull⟩ := noLiteral
  unfold terminalType
  split
  · exact absurd ‹_› noNumber
  · exact absurd ‹_› noString
  · exact absurd ‹_› noBool
  · exact absurd ‹_› noNull
  · rfl

/-- An operand has the same type after the renaming, or breaks the same rule. A name is looked up
    under its new name in a renamed environment. -/
theorem terminalType_renamed (token : Token) :
    Together Eq (terminalType environment token)
      (terminalType (environment.rename names) (names.operand token)) := by
  by_cases literal : token.kind ∈ Reader.literals
  · obtain ⟨type, typed⟩ := terminalType_literal literal
    rw [Renaming.operand, if_pos literal, typed, typed]
    exact agree_pure rfl
  · rw [Renaming.operand, if_neg literal, terminalType_name _ literal,
      terminalType_name _ (by exact literal)]
    simp only [Token.renamed, Environment.binding?_rename]
    cases environment.binding? token.lexeme with
    | some binding => exact agree_pure rfl
    | none => exact together_fail token.line rfl

/-- An operand that is no name refers to nothing, so looking it up always succeeds. -/
theorem reference_other {token : Token} (noName : token.kind ≠ .identifier) :
    reference environment token = pure () := by
  simp [reference, Token.isIdentifier, noName]

/-- Looking up an operand succeeds after the renaming exactly if it did before, and breaks the same
    rule otherwise. -/
theorem reference_renamed (token : Token) :
    Together (fun _ _ => True) (reference environment token)
      (reference (environment.rename names) (names.operand token)) := by
  by_cases isName : token.kind = .identifier
  · have noLiteral : token.kind ∉ Reader.literals := by simp [Reader.literals, isName]
    rw [Renaming.operand, if_neg noLiteral]
    simp only [reference, Token.isIdentifier, Token.renamed, isName, beq_self_eq_true, true_and,
      Environment.binding?_rename, Option.isNone_map]
    by_cases undeclared : (environment.binding? token.lexeme).isNone = true
    · rw [if_pos undeclared, if_pos undeclared]
      exact together_fail token.line rfl
    · rw [if_neg undeclared, if_neg undeclared]
      exact agree_pure trivial
  · rw [reference_other _ isName, reference_other _ (by rwa [Renaming.operand_kind])]
    exact agree_pure trivial

/-- A callee has the same signature after the renaming, up to the name in it. -/
theorem signatureOf_renamed (callee : Token) :
    Together (fun signature other => other.parameters = signature.parameters ∧
        other.returns = signature.returns)
      (signatureOf environment callee)
      (signatureOf (environment.rename names) (names.callee callee)) := by
  unfold signatureOf
  rw [Renaming.callee_kind, Renaming.callee_line]
  cases builtIn : Builtin.ofKind? callee.kind with
  | some builtin => exact agree_pure ⟨rfl, rfl⟩
  | none =>
      have called : (names.callee callee).lexeme = names.functionName callee.lexeme := by
        simp [Renaming.callee, builtIn, Token.renamed]
      simp only [called, Environment.signature?_rename]
      cases environment.signature? callee.lexeme with
      | some signature => exact agree_pure ⟨rfl, rfl⟩
      | none => exact together_fail callee.line rfl

/-- A call has the same result after the renaming, if its arguments are treated alike for all types
    that can be expected. -/
theorem callResult_renamed (callee : Token) (count : Nat)
    {arguments others : List TypeName → Check Unit}
    (inside : ∀ types, Together (fun _ _ => True) (arguments types) (others types)) :
    Together Eq (callResult environment callee count arguments)
      (callResult (environment.rename names) (names.callee callee) count others) := by
  apply agree_bind (signatureOf_renamed names environment callee)
  rintro ⟨name, _, _⟩ ⟨otherName, parameters, returns⟩ ⟨rfl, rfl⟩
  have called : Together Eq
      (do arguments parameters; return StaticType.named returns)
      (do others parameters; return StaticType.named returns) :=
    agree_bind (inside parameters) fun _ _ _ => agree_pure rfl
  by_cases counted : count ≠ parameters.length
  · have miscounted : Together (fun _ _ => True)
        (fail callee.line (.argumentCount callee.lexeme parameters.length count) : Check PUnit)
        (fail callee.line
          (.argumentCount (names.callee callee).lexeme parameters.length count) : Check PUnit) :=
      together_fail callee.line rfl
    simp only [if_pos counted, Renaming.callee_line]
    exact agree_bind miscounted fun _ _ _ => called
  · simp only [if_neg counted]
    exact called

/-- A renamed value is on its line, which is that of its first token. -/
theorem rename_line (value : Value) : (value.rename names).line = value.line := by
  cases value with
  | terminal token =>
      rw [Value.rename]
      exact names.operand_line token
  | call callee arguments =>
      rw [Value.rename]
      exact names.callee_line callee

/-- There are as many values after the renaming as before, so calls have as many arguments. -/
theorem length_renameAll (values : List Value) :
    (Value.renameAll names values).length = values.length := by
  induction values with
  | nil => rfl
  | cons value values ih => rw [Value.renameAll, List.length_cons, List.length_cons, ih]

mutual

/-- A value has the same type after the renaming, or breaks the same rule. The recursion goes
    through the arguments of calls. -/
theorem valueType_renamed :
    (value : Value) → Together Eq (valueType environment value)
      (valueType (environment.rename names) (value.rename names))
  | .terminal token => by
      simp only [valueType, Value.rename]
      exact terminalType_renamed names environment token
  | .call callee arguments => by
      simp only [valueType, Value.rename, length_renameAll]
      apply together_step
      apply callResult_renamed
      intro types
      exact argumentsFit_renamed _ _ 1 arguments types

/-- Arguments fit the same types after the renaming, whatever the callee is called in the fault that
    is reported otherwise. -/
theorem argumentsFit_renamed (callee otherCallee : String) (position : Nat) :
    (arguments : List Value) → (types : List TypeName) →
      Together (fun _ _ => True) (argumentsFit environment callee position arguments types)
        (argumentsFit (environment.rename names) otherCallee position
          (Value.renameAll names arguments) types)
  | [], _ => by
      simp only [argumentsFit, Value.renameAll]
      exact agree_pure trivial
  | _ :: _, [] => by
      simp only [argumentsFit, Value.renameAll]
      exact agree_pure trivial
  | argument :: arguments, expected :: types => by
      simp only [argumentsFit, Value.renameAll]
      apply agree_bind (valueType_renamed argument)
      rintro actual _ rfl
      apply agree_bind (accepts_agrees actual expected)
      rintro fits _ rfl
      cases fits with
      | true => exact argumentsFit_renamed callee otherCallee (position + 1) arguments types
      | false =>
          rw [rename_line]
          exact together_fail argument.line rfl

end

/-! ## Statements -/

/-- An expression is checked after the renaming as before, operand by operand. -/
theorem expression_renamed (expression : Expression) :
    Together (fun _ _ => True) (Check.expression environment expression)
      (Check.expression (environment.rename names) (expression.rename names)) := by
  obtain ⟨left, tail⟩ := expression
  apply together_step
  cases tail with
  | none =>
      exact agree_bind (reference_renamed names environment left) fun _ _ _ => agree_pure trivial
  | some tail =>
      exact agree_bind (reference_renamed names environment left) fun _ _ _ =>
        agree_bind (reference_renamed names environment tail.2) fun _ _ _ => agree_pure trivial

/-- A condition is checked after the renaming as before, one side after the other. -/
theorem comparison_renamed (condition : Comparison) :
    Together (fun _ _ => True) (comparison environment condition)
      (comparison (environment.rename names) (condition.rename names)) := by
  obtain ⟨left, tail⟩ := condition
  apply together_step
  cases tail with
  | none =>
      exact agree_bind (expression_renamed names environment left) fun _ _ _ => agree_pure trivial
  | some tail =>
      exact agree_bind (expression_renamed names environment left) fun _ _ _ =>
        agree_bind (expression_renamed names environment tail.2) fun _ _ _ => agree_pure trivial

/-- A declaration is checked after the renaming as before. What it leaves is the renamed environment
    with its variable under the new name. -/
theorem declaration_renamed (name type : Token) (value : Value) :
    Together (Renamed names) (declaration environment name type value)
      (declaration (environment.rename names) (name.renamed names.variableName) type
        (value.rename names)) := by
  have initialized : Together (Renamed names)
      (do
        let actual ← valueType environment value
        if ← accepts actual type.lexeme then
          return environment.declareVariable ⟨name.lexeme, type.lexeme⟩
        else fail name.line (.declarationType name.lexeme type.lexeme actual.name))
      (do
        let actual ← valueType (environment.rename names) (value.rename names)
        if ← accepts actual type.lexeme then
          return (environment.rename names).declareVariable
            ⟨names.variableName name.lexeme, type.lexeme⟩
        else fail name.line (.declarationType (names.variableName name.lexeme) type.lexeme
          actual.name)) := by
    apply agree_bind (valueType_renamed names environment value)
    rintro actual _ rfl
    apply agree_bind (accepts_agrees actual type.lexeme)
    rintro fits _ rfl
    cases fits with
    | true =>
        exact agree_pure
          (Environment.declareVariable_rename names environment ⟨name.lexeme, type.lexeme⟩)
    | false => exact together_fail name.line rfl
  simp only [declaration, Token.renamed, Environment.declaredHere?_rename]
  cases environment.declaredHere? name.lexeme with
  | none => exact initialized
  | some existing =>
      have redeclared : Together (fun _ _ => True)
          (fail name.line (.redeclaration name.lexeme existing.type) : Check PUnit)
          (fail name.line (.redeclaration (names.variableName name.lexeme) existing.type) :
            Check PUnit) :=
        together_fail name.line rfl
      exact agree_bind redeclared fun _ _ _ => initialized

/-- An assignment is checked after the renaming as before, both its target and its expression. -/
theorem manipulation_renamed (target : Token) (value : Expression) :
    Together (fun _ _ => True) (manipulation environment target value)
      (manipulation (environment.rename names) (target.renamed names.variableName)
        (value.rename names)) := by
  have assignment := expression_renamed names environment value
  simp only [manipulation, Token.renamed, Environment.binding?_rename, Option.isNone_map]
  by_cases undeclared : (environment.binding? target.lexeme).isNone = true
  · have fails : Together (fun _ _ => True)
        (fail target.line (.undeclaredTarget target.lexeme) : Check PUnit)
        (fail target.line (.undeclaredTarget (names.variableName target.lexeme)) : Check PUnit) :=
      together_fail target.line rfl
    rw [if_pos undeclared, if_pos undeclared]
    exact agree_bind fails fun _ _ _ => assignment
  · rw [if_neg undeclared, if_neg undeclared]
    exact assignment

/-- A return statement is checked after the renaming as before, for whether it is in a function does
    not change. -/
theorem returnValue_renamed (keyword value : Token) :
    Together (fun _ _ => True) (returnValue environment keyword value)
      (returnValue (environment.rename names) keyword (names.operand value)) := by
  have result := reference_renamed names environment value
  have outside : Together (fun _ _ => True)
      (fail keyword.line .returnOutsideFunction : Check PUnit)
      (fail keyword.line .returnOutsideFunction : Check PUnit) :=
    together_fail keyword.line rfl
  rintro ⟨trail, inFunction⟩
  cases inFunction with
  | true => exact result ⟨trail, true⟩
  | false => exact agree_bind outside (fun _ _ _ => result) ⟨trail, false⟩

/-- A step that leaves both environments as they are may be compared by its check. -/
theorem together_unchanged (name : String) {check other : Check Unit}
    (together : Together (fun _ _ => True) check other) :
    Together (Renamed names) (do step name check; return environment)
      (do step name other; return environment.rename names) :=
  agree_bind (together_step name together) fun _ _ _ => agree_pure rfl

/-- Blocks that start out with one and the same variables, renamed, are checked together if what is
    in them is. -/
theorem together_inBlock (bindings : List Binding) {check other : Environment → Check Environment}
    (together : ∀ environment, Together (Renamed names) (check environment)
      (other (environment.rename names))) :
    Together (fun _ _ => True) (inBlock environment bindings check)
      (inBlock (environment.rename names) (bindings.map (Binding.rename names)) other) :=
  agree_inBlock fun site =>
    (together (environment.enter bindings) site).mono id fun _ => trivial

section Statements

variable {hoisted otherHoisted : Nat → Nat → Environment → Check Environment}

/-- Placeholders are checked as they are after the renaming. -/
def HoistedRenamed (hoisted otherHoisted : Nat → Nat → Environment → Check Environment) : Prop :=
  ∀ index line environment, Together (Renamed names) (hoisted index line environment)
    (otherHoisted index line (environment.rename names))

mutual

/-- A statement is checked as it is after the renaming. The recursion is on the statement, its
    blocks and its branches together. -/
theorem statement_renamed (placed : HoistedRenamed names hoisted otherHoisted)
    (environment : Environment) :
    (statement : Statement) → Together (Renamed names)
      (Check.statement hoisted environment statement)
      (Check.statement otherHoisted (environment.rename names) (statement.rename names))
  | .forRange keyword counter start stop body => by
      simp only [Check.statement, Statement.rename]
      apply together_unchanged
      apply agree_bind (reference_renamed names environment start)
      intro _ _ _
      apply agree_bind (reference_renamed names environment stop)
      intro _ _ _
      exact together_inBlock names environment [⟨counter.lexeme, .int⟩]
        fun inner => block_renamed placed inner body
  | .whileLoop keyword condition body => by
      simp only [Check.statement, Statement.rename]
      apply together_unchanged
      apply agree_bind (comparison_renamed names environment condition)
      intro _ _ _
      exact together_inBlock names environment [] fun inner => block_renamed placed inner body
  | .ifChain list none => by
      simp only [Check.statement, Statement.rename]
      apply together_unchanged
      exact agree_bind (branches_renamed placed environment list) fun _ _ _ => agree_pure trivial
  | .ifChain list (some body) => by
      simp only [Check.statement, Statement.rename]
      apply together_unchanged
      apply agree_bind (branches_renamed placed environment list)
      intro _ _ _
      exact together_inBlock names environment [] fun inner => block_renamed placed inner body
  | .declaration name type value => by
      simp only [Check.statement, Statement.rename]
      exact together_step _ (declaration_renamed names environment name type value)
  | .manipulation target value => by
      simp only [Check.statement, Statement.rename]
      exact together_unchanged names environment _
        (manipulation_renamed names environment target value)
  | .call callee arguments => by
      simp only [Check.statement, Statement.rename, length_renameAll]
      have result := callResult_renamed names environment callee arguments.length fun types =>
        argumentsFit_renamed names environment callee.lexeme (names.callee callee).lexeme 1
          arguments types
      exact agree_bind (together_step _ result) fun _ _ _ => agree_pure rfl
  | .returnValue keyword value => by
      simp only [Check.statement, Statement.rename]
      exact together_unchanged names environment _
        (returnValue_renamed names environment keyword value)
  | .hoisted index line => by
      simp only [Check.statement, Statement.rename]
      exact together_step _ (placed index line environment)

/-- A block is checked as it is after the renaming, statement by statement. -/
theorem block_renamed (placed : HoistedRenamed names hoisted otherHoisted)
    (environment : Environment) :
    (body : Block Statement) → Together (Renamed names) (block hoisted environment body)
      (block otherHoisted (environment.rename names) (body.rename names))
  | ⟨line, list⟩ => by
      simp only [block, Block.rename]
      exact statements_renamed placed environment list

/-- Branches are checked as they are after the renaming, each with its condition and its block. -/
theorem branches_renamed (placed : HoistedRenamed names hoisted otherHoisted)
    (environment : Environment) :
    (list : List (Branch Statement)) →
      Together (fun _ _ => True) (branches hoisted environment list)
        (branches otherHoisted (environment.rename names) (Branch.renameAll names list))
  | [] => by
      simp only [branches, Branch.renameAll]
      exact agree_pure trivial
  | ⟨keyword, condition, body⟩ :: later => by
      simp only [branches, Branch.renameAll]
      apply agree_bind (comparison_renamed names environment condition)
      intro _ _ _
      apply agree_bind
        (together_inBlock names environment [] fun inner => block_renamed placed inner body)
      intro _ _ _
      exact branches_renamed placed environment later

/-- A list of statements is checked as it is after the renaming, each in the environment that the
    one before it has left. -/
theorem statements_renamed (placed : HoistedRenamed names hoisted otherHoisted)
    (environment : Environment) :
    (list : List Statement) → Together (Renamed names) (statements hoisted environment list)
      (statements otherHoisted (environment.rename names) (Statement.renameAll names list))
  | [] => by
      simp only [statements, Statement.renameAll]
      exact agree_pure rfl
  | first :: later => by
      simp only [statements, Statement.renameAll]
      apply agree_bind (statement_renamed placed environment first)
      rintro next _ rfl
      exact statements_renamed placed next later

end

end Statements

/-! ## Definitions -/

/-- The signature of a renamed definition has the new name and the old types. -/
theorem signature_rename (definition : Definition) :
    (definition.rename names).signature = definition.signature.rename names := by
  simp [Definition.signature, Definition.rename, Signature.rename, Parameter.rename, Token.renamed]

/-- The parameters of a renamed definition bind the renamed variables, with their old types. -/
theorem bindings_rename (definition : Definition) :
    (definition.rename names).bindings = definition.bindings.map (Binding.rename names) := by
  simp [Definition.bindings, Definition.rename, Binding.rename, Parameter.rename, Token.renamed]

/-- A placeholder is checked as it is after the renaming, by induction on the bound for bodies
    inside one another. -/
theorem definition_renamed (functions : List Definition) (bound : Nat) :
    HoistedRenamed names (definition functions bound)
      (definition (functions.map (Definition.rename names)) bound) := by
  induction bound with
  | zero => exact fun index line environment => together_fail line rfl
  | succ bound ih =>
      intro index line environment
      rw [definition_succ, definition_succ]
      simp only [entered, List.getElem?_map]
      cases functions[index]? with
      | none => exact together_fail line rfl
      | some definition =>
          let declared := environment.declareFunction definition.signature
          let isolated := Environment.seeded [] declared.visibleFunctions
          have body : Together (fun _ _ => True)
              (inBlock isolated definition.bindings fun inner =>
                block (Check.definition functions bound) inner definition.body)
              (inBlock (isolated.rename names) (definition.bindings.map (Binding.rename names))
                fun inner =>
                  block (Check.definition (functions.map (Definition.rename names)) bound) inner
                    (definition.body.rename names)) :=
            together_inBlock names isolated definition.bindings fun inner =>
              block_renamed names ih inner definition.body
          simp only [Option.map_some, signature_rename, bindings_rename,
            Environment.declareFunction_rename, Environment.visibleFunctions_rename]
          exact agree_bind (fun site => body { site with inFunction := true }) fun _ _ _ =>
            agree_pure rfl

end Check

/-- Renaming changes nothing about static analysis but the wording of its fault: the renamed
    program is accepted exactly if the program is, and otherwise breaks the same rule at the same
    place. The names of variables and of functions are changed independently, in the program and
    in what it starts out with. -/
theorem analyze_rename (program : Program) (bindings : List Binding) (functions : List Signature) :
    let analysis := program.analyze bindings functions
    let renamed := (program.rename names).analyze (bindings.map (Binding.rename names))
      (functions.map (Signature.rename names))
    (renamed.outcome = .ok () ↔ analysis.outcome = .ok ()) ∧
      ∀ failure, analysis.outcome = .error failure →
        ∃ rule trail line message otherMessage,
          failure = .analysis rule ⟨trail, line, message⟩ ∧
            renamed.outcome = .error (.analysis rule ⟨trail, line, otherMessage⟩) := by
  intro analysis renamed
  have bound : (program.rename names).definitionBound = program.definitionBound := by
    simp [Program.definitionBound, Program.rename]
  have agree : Traced.Agree Check.FaultedTogether Eq analysis renamed := by
    have body := Check.statements_renamed names
      (Check.definition_renamed names program.functions program.definitionBound)
      (.seeded bindings functions) program.body ⟨["analyze"], false⟩
    simp only [analysis, renamed, Program.analyze, bound]
    exact Traced.agree_bind body fun _ _ _ =>
      (Traced.agree_report _ _).mono id fun _ => rfl
  constructor
  · exact (agree.outcome_ok_iff ()).symm
  · intro failure failed
    obtain ⟨_, otherFailed, rule, trail, line, message, otherMessage, rfl, rfl⟩ :=
      agree.outcome_error failed
    exact ⟨rule, trail, line, message, otherMessage, rfl, otherFailed⟩

/-- A variable and a call share a name, and only the variable gets a new one. The call stays
    without a function. -/
theorem analyze_rename_shared :
    let names : Renaming :=
      ⟨fun name => "v" ++ name, id, fun _ _ same => by simpa using same, Function.injective_id⟩
    let word (kind : Kind) (lexeme : String) (line : Nat) : Token := ⟨kind, lexeme, line⟩
    let shared (line : Nat) : Token := word .identifier "f" line
    let one (line : Nat) : Token := word .intLiteral "1" line
    let program : Program :=
      ⟨⟨word .identifier "GoType" 1, none, 1⟩,
        [.declaration (shared 2) (word .identifier "int" 2) (.terminal (one 2)),
          .call (shared 3) [.terminal (shared 3)]], []⟩
    let failure : Failure := .analysis .undeclaredFunction
      ⟨["analyze", "call"], 3, (TypingFault.undeclaredFunction "f").message⟩
    (program.analyze [] []).outcome = .error failure ∧
      ∃ rule trail line message otherMessage,
        failure = .analysis rule ⟨trail, line, message⟩ ∧
          ((program.rename names).analyze [] []).outcome =
            .error (.analysis rule ⟨trail, line, otherMessage⟩) := by
  intro names word shared one program failure
  have fails : (program.analyze [] []).outcome = .error failure := rfl
  have result := (analyze_rename names program [] []).2 failure fails
  rw [List.map_nil, List.map_nil] at result
  exact ⟨fails, result⟩

end Offside
