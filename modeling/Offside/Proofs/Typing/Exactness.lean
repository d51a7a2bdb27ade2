import Mathlib
import Offside.Proofs.Syntax.Completeness
import Offside.Proofs.Typing.Decides

/-!
# Static analysis is exact

A parsed program passes static analysis exactly when every statement that occurs in
it obeys the rules at its place.

The walk is followed statement by statement. At each place its environment is the
one that the path to the place determines, so each check decides the rule that the
path-based definitions state. A statement hands on the environment of the next
place, a block starts from the environment of its first place, and a definition
from that of its body. Bodies are entered with a bound on the number of definitions
inside one another; a body meets only functions that come before its own, so the
bound is never reached.
-/

namespace Offside

open Check Grammar

variable {setting : Setting} {place : Place} {inFunction : Bool}

/-! ## Values -/

/-- Looking up a leaf decides whether it is known at the place: a name has to be visible there. -/
theorem reference_decides (token : Token) :
    Decides inFunction (reference (place.environment setting) token) fun _ =>
      place.Known setting token := by
  refine (decides_unless token.line (.undeclaredVariable token.lexeme)).congr fun _ => ?_
  rw [Place.binding?_environment]
  simp [Place.Known, Token.isIdentifier, ← Option.ne_none_iff_exists']

/-- The type of a leaf is found exactly if it has one by the rules at the place. -/
theorem terminalType_decides {token : Token} (isOperand : Operand token) :
    Decides inFunction (terminalType (place.environment setting) token)
      (place.HasType setting (.terminal token)) := by
  rcases isOperand with isName | isLiteral
  · simp only [terminalType, isName, Place.binding?_environment]
    cases found : place.binding? setting token.lexeme with
    | none =>
        refine (decides_fail _ _).congr fun type => ⟨False.elim, fun typed => ?_⟩
        cases typed <;> simp_all
    | some binding =>
        refine decides_pure_only (.name token binding isName found) fun type typed => ?_
        cases typed <;> simp_all
  · simp only [Literal, List.mem_cons, List.not_mem_nil, or_false] at isLiteral
    rcases isLiteral with isBool | isNumber | isString | isNull
    · simp only [terminalType, isBool]
      refine decides_pure_only (.bool token isBool) fun type typed => ?_
      cases typed <;> simp_all
    · simp only [terminalType, isNumber]
      refine decides_pure_only (.number token isNumber) fun type typed => ?_
      cases typed <;> simp_all
    · simp only [terminalType, isString]
      refine decides_pure_only (.string token isString) fun type typed => ?_
      cases typed <;> simp_all
    · simp only [terminalType, isNull]
      refine decides_pure_only (.null token isNull) fun type typed => ?_
      cases typed <;> simp_all

/-- Going on with a value that fits, and giving up on one that does not. -/
theorem accepts_decides {α : Type} {actual : StaticType} {expected : TypeName} {next : Check α}
    {holds : α → Prop} (onward : Decides inFunction next holds) (line : Nat)
    (fault : TypingFault) :
    Decides inFunction
      (accepts actual expected >>= fun accepted => if accepted = true then next else fail line fault)
      fun value => actual.Compatible expected ∧ holds value := by
  have verdict : Decides inFunction (accepts actual expected)
      (· = (actual.compatibility expected).isOk) := by
    unfold accepts
    dsimp only
    split
    · apply Decides.congr
      · exact decides_then (decides_report _) fun _ => decides_pure _
      · simp
    · exact decides_pure _
  have decided (accepted : Bool) :
      Decides inFunction (if accepted = true then next else fail line fault)
        fun value => accepted = true ∧ holds value := by
    split
    · rename_i isAccepted
      exact onward.congr fun value => by simp [isAccepted]
    · rename_i rejected
      exact (decides_fail line fault).congr fun value => by simp [rejected]
  apply Decides.congr
  · exact decides_bind verdict fun accepted _ => decided accepted
  · simp [← StaticType.compatibility_isOk]

/-- A call is of `print`, or of a function that is visible at the place, and no other callee is
    found. -/
theorem signatureOf_decides {callee : Token} (isCallee : Callee callee) :
    Decides inFunction (signatureOf (place.environment setting) callee) fun signature =>
      callee.kind = .print ∧ signature = Builtin.print.signature ∨
        callee.kind = .identifier ∧ place.signature? setting callee.lexeme = some signature := by
  unfold signatureOf
  rcases isCallee with isName | isPrint
  · have noBuiltin : Builtin.ofKind? callee.kind = none := by
      rw [isName]
      decide
    rw [noBuiltin]
    simp only [Place.signature?_environment]
    cases found : place.signature? setting callee.lexeme with
    | none => exact (decides_fail _ _).congr fun signature => by simp [isName]
    | some known => exact (decides_pure _).congr fun signature => by simp [isName, eq_comm]
  · have builtin : Builtin.ofKind? callee.kind = some Builtin.print := by
      rw [isPrint]
      decide
    rw [builtin]
    exact (decides_pure _).congr fun signature => by simp [isPrint]

/-- Each argument has a type that fits its parameter. -/
def ArgumentsFit (setting : Setting) (place : Place) (arguments : List Value)
    (expected : List TypeName) : Prop :=
  ∃ typed : List (Value × StaticType), arguments = typed.map Prod.fst ∧
    (∀ argument ∈ typed, place.HasType setting argument.1 argument.2) ∧
    List.Forall₂ StaticType.Compatible (typed.map Prod.snd) expected

/-- Going through the arguments decides whether each of them has a type that fits its parameter, if
    there are as many of both. -/
theorem argumentsFit_decides (callee : String) {arguments : List Value}
    {expected : List TypeName} (position : Nat)
    (typed : ∀ argument ∈ arguments,
      Decides inFunction (valueType (place.environment setting) argument)
        (place.HasType setting argument))
    (sameLength : arguments.length = expected.length) :
    Decides inFunction
      (argumentsFit (place.environment setting) callee position arguments expected)
      fun _ => ArgumentsFit setting place arguments expected := by
  induction arguments generalizing expected position with
  | nil =>
      obtain rfl : expected = [] := List.eq_nil_of_length_eq_zero sameLength.symm
      simp only [argumentsFit]
      exact (decides_pure ()).congr fun _ =>
        ⟨fun _ => ⟨[], rfl, by simp, .nil⟩, fun _ => rfl⟩
  | cons argument arguments ih =>
      cases expected with
      | nil => simp at sameLength
      | cons first expected =>
          have later := ih (position + 1)
            (fun other member => typed other (List.mem_cons_of_mem argument member))
            (Nat.succ.inj sameLength)
          rw [argumentsFit]
          refine (decides_bind (typed argument (by simp)) fun actual _ =>
            accepts_decides later _ _).congr fun _ => ?_
          constructor
          · rintro ⟨actual, hasType, fits, rest, rfl, restTyped, restFit⟩
            refine ⟨(argument, actual) :: rest, rfl, ?_, .cons fits restFit⟩
            simpa using ⟨hasType, fun value type => restTyped (value, type)⟩
          · rintro ⟨all, isAll, allTyped, allFit⟩
            cases all with
            | nil => simp at isAll
            | cons entry rest =>
                simp only [List.map_cons, List.cons.injEq] at isAll
                obtain ⟨rfl, rfl⟩ := isAll
                obtain ⟨fits, restFit⟩ := List.forall₂_cons.mp allFit
                exact ⟨entry.2, allTyped entry (by simp), fits, rest, rfl,
                  fun other member => allTyped other (List.mem_cons_of_mem entry member), restFit⟩

/-- A call with arguments whose types are decided has a type exactly if the rules give it one. -/
theorem callResult_decides {callee : Token} (isCallee : Callee callee) {arguments : List Value}
    (typed : ∀ argument ∈ arguments,
      Decides inFunction (valueType (place.environment setting) argument)
        (place.HasType setting argument)) :
    Decides inFunction
      (callResult (place.environment setting) callee arguments.length
        (argumentsFit (place.environment setting) callee.lexeme 1 arguments))
      (place.HasType setting (.call callee arguments)) := by
  unfold callResult
  dsimp only
  apply Decides.congr
  · exact decides_bind (signatureOf_decides isCallee) fun signature _ =>
      decides_guard _ _ fun sameLength =>
        decides_then (argumentsFit_decides callee.lexeme 1 typed (not_ne_iff.mp sameLength))
          fun _ => decides_pure (StaticType.named signature.returns)
  · intro type
    constructor
    · rintro ⟨signature, ⟨isPrint, rfl⟩ | ⟨isName, found⟩, sameLength,
        ⟨all, rfl, allTyped, allFit⟩, rfl⟩
      · obtain ⟨entry, rfl⟩ : ∃ entry, all = [entry] := by
          rw [← List.length_eq_one_iff]
          simpa [Builtin.print] using sameLength
        exact .print callee entry.1 entry.2 isPrint (allTyped entry (by simp))
      · exact .call callee signature all isName found allTyped allFit
    · intro hasType
      cases hasType with
      | print _ argument actual isPrint argumentTyped =>
          refine ⟨_, Or.inl ⟨isPrint, rfl⟩, by simp [Builtin.print],
            ⟨[(argument, actual)], rfl, ?_, ?_⟩, rfl⟩
          · simpa using argumentTyped
          · exact .cons (Or.inr (Or.inl rfl)) .nil
      | call _ signature all isName found allTyped allFit =>
          refine ⟨signature, Or.inr ⟨isName, found⟩, ?_, ⟨all, rfl, allTyped, allFit⟩, rfl⟩
          simpa using allFit.length_eq

/-- The type of a value is found exactly if it has one by the rules. The induction goes through the
    arguments of calls. -/
theorem valueType_decides {value : Value} (parsed : value.Parsed) :
    Decides inFunction (valueType (place.environment setting) value)
      (place.HasType setting value) := by
  induction parsed with
  | terminal token isOperand =>
      rw [valueType]
      exact terminalType_decides isOperand
  | call callee arguments isCallee parsed ih =>
      rw [valueType]
      exact decides_step "call" (callResult_decides isCallee ih)

/-! ## Simple statements -/

/-- Checking an expression decides whether all of its operands are known at the place. -/
theorem expression_decides (expression : Expression) :
    Decides inFunction (Check.expression (place.environment setting) expression) fun _ =>
      ∀ operand ∈ expression.operands, place.Known setting operand :=
  decides_step "expression" (decides_forM fun operand _ => reference_decides operand)

/-- Checking a condition decides whether all operands on both sides are known at the place. -/
theorem comparison_decides (comparison : Comparison) :
    Decides inFunction (Check.comparison (place.environment setting) comparison) fun _ =>
      ∀ expression ∈ comparison.expressions, ∀ operand ∈ expression.operands,
        place.Known setting operand :=
  decides_step "comparison" (decides_forM fun expression _ => expression_decides expression)

/-- Checking a declaration decides whether it obeys the rules at its place. The environment that it
    leaves is that of the next place. -/
theorem declaration_decides (name type : Token) {value : Value} (parsed : value.Parsed) :
    Decides inFunction (Check.declaration (place.environment setting) name type value)
      fun environment => place.Obeys setting (.declaration name type value) ∧
        environment = (place.after [.declaration name type value]).environment setting := by
  unfold Check.declaration
  dsimp only
  rw [Place.declaredHere?_environment, Place.environment_after_declaration]
  cases found : (place.own setting).find? (fun binding => binding.name == name.lexeme) with
  | some existing =>
      refine (decides_fail_then _ _ _).congr fun environment => ⟨False.elim, ?_⟩
      rintro ⟨⟨fresh, _⟩, _⟩
      exact fresh existing (List.mem_of_find?_eq_some found)
        (by simpa using List.find?_some found)
  | none =>
      have fresh : ∀ binding ∈ place.own setting, binding.name ≠ name.lexeme := by
        simpa using found
      apply Decides.congr
      · exact decides_bind (valueType_decides parsed) fun actual _ =>
          accepts_decides (decides_pure _) _ _
      · intro environment
        constructor
        · rintro ⟨actual, hasType, fits, isNext⟩
          exact ⟨⟨fresh, actual, hasType, fits⟩, isNext⟩
        · rintro ⟨⟨_, actual, hasType, fits⟩, isNext⟩
          exact ⟨actual, hasType, fits, isNext⟩

/-- Checking an assignment decides whether it obeys the rules at its place. -/
theorem manipulation_decides (target : Token) (value : Expression) :
    Decides inFunction (Check.manipulation (place.environment setting) target value)
      fun _ => place.Obeys setting (.manipulation target value) := by
  unfold Check.manipulation
  dsimp only
  rw [Place.binding?_environment]
  refine (decides_guard _ _ fun _ => expression_decides value).congr fun _ => ?_
  simp [Place.Obeys, ← Option.ne_none_iff_exists']

/-- Checking a return statement decides whether it obeys the rules at its place. Being in a function
    is one of them. -/
theorem returnValue_decides (keyword value : Token) :
    Decides place.inFunction (Check.returnValue (place.environment setting) keyword value)
      fun _ => place.Obeys setting (.returnValue keyword value) := by
  unfold Check.returnValue
  refine decides_read fun trail => ?_
  refine (decides_guard _ _ fun _ => reference_decides value).congr fun _ => ?_
  simp [Place.Obeys]

/-! ## Statements with blocks -/

section Blocks

variable (setting) (hoisted : Nat → Nat → Environment → Check Environment)

/-- The check of the statement decides, at every place, whether the rules hold
    throughout it, and leaves the environment of the next place. -/
def Followed (statement : Statement) : Prop :=
  ∀ place : Place,
    Decides place.inFunction (Check.statement hoisted (place.environment setting) statement)
      fun environment =>
        Throughout setting.definitions (fun place => place.Obeys setting) place statement ∧
          environment = (place.after [statement]).environment setting

variable {setting hoisted}

/-- Checking a list of statements decides whether the rules hold throughout, at the place of each.
    The induction is on the list, for every place and its environment. -/
theorem statements_decides {statements : List Statement}
    (followed : ∀ statement ∈ statements, Followed setting hoisted statement) (place : Place) :
    Decides place.inFunction (Check.statements hoisted (place.environment setting) statements)
      fun environment =>
        ThroughoutAll setting.definitions (fun place => place.Obeys setting) place statements ∧
          environment = (place.after statements).environment setting := by
  induction statements generalizing place with
  | nil =>
      rw [Check.statements]
      exact (decides_pure _).congr fun environment => by simp [throughoutAll_nil]
  | cons statement statements ih =>
      have later := ih (fun other member => followed other (List.mem_cons_of_mem statement member))
        (place.after [statement])
      rw [Place.inFunction_after] at later
      rw [Check.statements]
      apply Decides.congr
      · exact decides_bind (followed statement (by simp) place) fun environment isNext =>
          isNext.2 ▸ later
      · intro environment
        rw [throughoutAll_cons]
        simp [and_assoc]

/-- A block is checked as the list of its statements, and its line has no part in it. -/
theorem block_eq (environment : Environment) (body : Block Statement) :
    Check.block hoisted environment body =
      Check.statements hoisted environment body.statements := by
  obtain ⟨line, statements⟩ := body
  rw [Check.block]

/-- A block is checked from the environment of its first place, in which the counter of its loop is
    bound, if it has one. -/
theorem block_decides {body : Block Statement}
    (followed : ∀ statement ∈ body.statements, Followed setting hoisted statement) (place : Place)
    (counter : Option Token) :
    Decides place.inFunction
      (inBlock (place.environment setting) (counterBindings counter) fun inner =>
        Check.block hoisted inner body)
      fun _ => ThroughoutAll setting.definitions (fun place => place.Obeys setting)
        (.inBlock place counter []) body.statements := by
  have entered : (place.environment setting).enter (counterBindings counter) =
      (Place.inBlock place counter []).environment setting := by
    simp [Environment.enter, Place.environment, Place.own, declaredIn, definedIn]
  have inside := statements_decides followed (.inBlock place counter [])
  rw [← entered, ← block_eq] at inside
  apply Decides.congr
  · exact decides_inBlock inside
  · simp

/-- Checking branches decides that all names in their conditions are known and that the rules hold
    throughout their blocks. -/
theorem branches_decides {branches : List (Branch Statement)}
    (followed : ∀ branch ∈ branches, ∀ statement ∈ branch.body.statements,
      Followed setting hoisted statement) (place : Place) :
    Decides place.inFunction (Check.branches hoisted (place.environment setting) branches)
      fun _ =>
        (∀ branch ∈ branches, ∀ expression ∈ branch.condition.expressions,
          ∀ operand ∈ expression.operands, place.Known setting operand) ∧
        ∀ branch ∈ branches,
          ThroughoutAll setting.definitions (fun place => place.Obeys setting)
            (.inBlock place none []) branch.body.statements := by
  induction branches with
  | nil =>
      rw [Check.branches]
      exact (decides_pure ()).congr fun _ => by simp
  | cons branch branches ih =>
      obtain ⟨keyword, condition, body⟩ := branch
      have later := ih fun other member => followed other (List.mem_cons_of_mem _ member)
      rw [Check.branches]
      apply Decides.congr
      · exact decides_then (comparison_decides condition) fun _ =>
          decides_then (block_decides (followed _ List.mem_cons_self) place none) fun _ => later
      · intro _
        simp only [List.forall_mem_cons]
        tauto

/-- A statement that ends with a block is followed when its own check decides its own
    rule and the rules throughout its blocks. -/
theorem followed_of_blocks {statement : Statement}
    (noDeclaration : ∀ name type value, statement ≠ .declaration name type value)
    (noDefinition : ∀ index line, statement ≠ .hoisted index line)
    (decides : ∀ place : Place, ∃ check : Check Unit,
      Check.statement hoisted (place.environment setting) statement =
          (do check; return place.environment setting) ∧
        Decides place.inFunction check fun _ =>
          place.Obeys setting statement ∧
            ∀ counter body, (counter, body) ∈ statement.blocks →
              ThroughoutAll setting.definitions (fun place => place.Obeys setting)
                (.inBlock place counter []) body.statements) :
    Followed setting hoisted statement := by
  intro place
  obtain ⟨check, isCheck, decided⟩ := decides place
  rw [isCheck, Place.environment_after_other setting place noDeclaration noDefinition]
  apply Decides.congr
  · exact decides_then decided fun _ => decides_pure (place.environment setting)
  · intro environment
    rw [throughout_blocks_iff noDefinition]

/-- A loop over a range is followed if the statements in its block are. The counter is bound in the
    block and nowhere else. -/
theorem forRange_followed {keyword counter start stop : Token} {body : Block Statement}
    (followed : ∀ statement ∈ body.statements, Followed setting hoisted statement) :
    Followed setting hoisted (.forRange keyword counter start stop body) := by
  refine followed_of_blocks (by simp) (by simp) fun place => ⟨_, by rw [Check.statement], ?_⟩
  apply decides_step
  apply Decides.congr
  · exact decides_then (reference_decides start) fun _ =>
      decides_then (reference_decides stop) fun _ =>
        block_decides followed place (some counter)
  · simp [Place.Obeys, Statement.blocks, and_assoc]

/-- A loop with a condition is followed if the statements in its block are. -/
theorem whileLoop_followed {keyword : Token} {condition : Comparison} {body : Block Statement}
    (followed : ∀ statement ∈ body.statements, Followed setting hoisted statement) :
    Followed setting hoisted (.whileLoop keyword condition body) := by
  refine followed_of_blocks (by simp) (by simp) fun place => ⟨_, by rw [Check.statement], ?_⟩
  apply decides_step
  apply Decides.congr
  · exact decides_then (comparison_decides condition) fun _ => block_decides followed place none
  · simp [Place.Obeys, Statement.blocks]

/-- A chain is followed if the statements in all of its blocks are, the one of its `else`
    included. -/
theorem ifChain_followed {branches : List (Branch Statement)}
    {otherwise : Option (Block Statement)}
    (followed : ∀ branch ∈ branches, ∀ statement ∈ branch.body.statements,
      Followed setting hoisted statement)
    (otherwiseFollowed : ∀ body ∈ otherwise, ∀ statement ∈ body.statements,
      Followed setting hoisted statement) :
    Followed setting hoisted (.ifChain branches otherwise) := by
  cases otherwise with
  | none =>
      refine followed_of_blocks (by simp) (by simp) fun place => ⟨_, by rw [Check.statement], ?_⟩
      apply decides_step
      apply Decides.congr
      · exact decides_then (branches_decides followed place) fun _ => decides_pure ()
      · intro _
        rw [forall_blocks_ifChain]
        simp [Place.Obeys]
  | some body =>
      refine followed_of_blocks (by simp) (by simp) fun place => ⟨_, by rw [Check.statement], ?_⟩
      apply decides_step
      apply Decides.congr
      · exact decides_then (branches_decides followed place) fun _ =>
          block_decides (otherwiseFollowed body rfl) place none
      · intro _
        rw [forall_blocks_ifChain]
        simp [Place.Obeys, and_assoc]

/-- A statement without blocks that declares nothing is followed if its check decides the rules at
    its place and leaves the environment alone. -/
theorem simple_followed {statement : Statement}
    (noDeclaration : ∀ name type value, statement ≠ .declaration name type value)
    (noDefinition : ∀ index line, statement ≠ .hoisted index line)
    (noBlocks : statement.blocks = [])
    (decides : ∀ place : Place, ∃ check : Check Unit,
      Check.statement hoisted (place.environment setting) statement =
          (do check; return place.environment setting) ∧
        Decides place.inFunction check fun _ => place.Obeys setting statement) :
    Followed setting hoisted statement := by
  refine followed_of_blocks noDeclaration noDefinition fun place => ?_
  obtain ⟨check, isCheck, decided⟩ := decides place
  exact ⟨check, isCheck, decided.congr fun _ => by simp [noBlocks]⟩

/-! ## Definitions -/

/-- The body of a definition is checked from the environment of its first place, and
    what follows sees the function. -/
theorem hoisted_followed {bound index line : Nat} {definition : Definition}
    (found : setting.definitions[index]? = some definition)
    (followed : ∀ statement ∈ definition.body.statements,
      Followed setting (Check.definition setting.definitions bound) statement) :
    Followed setting (Check.definition setting.definitions (bound + 1)) (.hoisted index line) := by
  intro place
  have entered : (Environment.seeded [] ((place.environment setting).declareFunction
      definition.signature).visibleFunctions).enter definition.bindings =
      (Place.inBody place definition []).environment setting := by
    simp [Environment.seeded, Environment.enter, Environment.frames, Place.environment, Place.own,
      declaredIn, definedIn]
  have inside := statements_decides followed (.inBody place definition [])
  rw [← entered, ← block_eq] at inside
  rw [Check.statement, Place.environment_after_hoisted setting place line found,
    Check.definition, found]
  apply decides_step
  apply Decides.congr
  · exact decides_then (decides_inFunction (decides_inBlock inside)) fun _ => decides_pure _
  · intro environment
    rw [throughout_hoisted_iff found]
    simp [Place.Obeys]

/-- A parsed statement is followed if the placeholders that it may contain are. -/
theorem parsed_followed {bound : Nat}
    (definitions : ∀ index < bound, ∀ line, Followed setting hoisted (.hoisted index line))
    {statement : Statement} (parsed : statement.Parsed bound) :
    Followed setting hoisted statement := by
  induction parsed with
  | intro statement values below inside ih =>
      cases statement with
      | forRange keyword counter start stop body =>
          exact forRange_followed (ih (some counter) body (by simp [Statement.blocks]))
      | whileLoop keyword condition body =>
          exact whileLoop_followed (ih none body (by simp [Statement.blocks]))
      | ifChain branches otherwise =>
          obtain ⟨inBranches, inOtherwise⟩ := forall_blocks_ifChain.mp ih
          exact ifChain_followed inBranches inOtherwise
      | declaration name type value =>
          intro place
          rw [Check.statement, throughout_blocks_iff (by simp)]
          apply decides_step
          apply Decides.congr
          · exact declaration_decides name type (values value (by simp [Statement.values]))
          · simp [Statement.blocks]
      | manipulation target value =>
          refine simple_followed (by simp) (by simp) rfl fun place =>
            ⟨_, by rw [Check.statement], ?_⟩
          exact decides_step "manipulation" (manipulation_decides target value)
      | call callee arguments =>
          intro place
          have parsed := values _ (List.mem_singleton.mpr rfl)
          cases parsed with
          | call _ _ isCallee argumentsParsed =>
              rw [Check.statement, throughout_blocks_iff (by simp),
                Place.environment_after_other setting place (by simp) (by simp)]
              apply Decides.congr
              · exact decides_bind
                  (decides_step "call" (callResult_decides isCallee fun argument member =>
                    valueType_decides (argumentsParsed argument member)))
                  fun _ _ => decides_pure (place.environment setting)
              · simp [Place.Obeys, Statement.blocks]
      | returnValue keyword value =>
          refine simple_followed (by simp) (by simp) rfl fun place =>
            ⟨_, by rw [Check.statement], ?_⟩
          exact decides_step "return" (returnValue_decides keyword value)
      | hoisted index line => exact definitions index (below index line rfl) line

/-- A placeholder is followed when the bound on definitions inside one another is
    past its index, because its body only has placeholders of functions before it. -/
theorem definition_followed (bodies : BodiesParsed 0 setting.definitions) (bound : Nat) :
    ∀ index < bound, index < setting.definitions.length → ∀ line,
      Followed setting (Check.definition setting.definitions bound) (.hoisted index line) := by
  induction bound with
  | zero =>
      intro index impossible
      exact absurd impossible (Nat.not_lt_zero index)
  | succ bound ih =>
      intro index inside isFunction line
      have found : setting.definitions[index]? = some setting.definitions[index] :=
        List.getElem?_eq_getElem isFunction
      refine hoisted_followed found fun statement member => ?_
      have parsed := bodies index _ found statement member
      rw [Nat.zero_add] at parsed
      refine parsed_followed (fun other before line => ?_) parsed
      exact ih other (by omega) (by omega) line

end Blocks

/-! ## Whole programs -/

/-- A parsed program passes static analysis exactly when every statement obeys the
    rules at its place. -/
theorem analyze_exact (tokens : List Token) (program : Program)
    (isParsed : (Program.parse tokens).outcome = .ok program) (bindings : List Binding)
    (signatures : List Signature) :
    (program.analyze bindings signatures).outcome = .ok () ↔
      ∀ place statement, program.Occurs place statement →
        place.Obeys ⟨bindings, signatures, program.functions⟩ statement := by
  obtain ⟨after, run⟩ := (Traced.outcome_ok_iff _ _).mp isParsed
  obtain ⟨bodyParsed, bodies⟩ := program_parsed ((parse_run_iff tokens #[] program).mp ⟨after, run⟩)
  have followed : ∀ statement ∈ program.body,
      Followed ⟨bindings, signatures, program.functions⟩
        (Check.definition program.functions program.definitionBound) statement := by
    intro statement member
    refine parsed_followed (fun index inside line => ?_) (bodyParsed statement member)
    exact definition_followed bodies _ index (by unfold Program.definitionBound; omega) inside line
  have start : Environment.seeded bindings signatures =
      (Place.top []).environment ⟨bindings, signatures, program.functions⟩ := by
    simp [Environment.seeded, Place.environment, Place.own, declaredIn, definedIn]
  have decided := statements_decides followed (.top []) ["analyze"] #[]
  rw [occurs_iff, Traced.outcome_ok_iff]
  simp only [Program.analyze, Traced.bind_ok_iff, start]
  constructor
  · rintro ⟨_, environment, between, walked, _⟩
    exact ((decided environment).mp ⟨between, walked⟩).1
  · intro obeyed
    obtain ⟨between, walked⟩ := (decided _).mpr ⟨obeyed, rfl⟩
    exact ⟨_, _, between, walked, rfl⟩

/-- A function that calls itself, and a loop whose body declares the name of its bound
    again and calls the function with its counter. The bound is given from outside. -/
theorem analyze_exact_shadowing :
    let word (kind : Kind) (lexeme : String) (line : Nat) : Token := ⟨kind, lexeme, line⟩
    let name (lexeme : String) (line : Nat) : Token := word .identifier lexeme line
    let tokens : List Token :=
      [word .importWord "import" 1, name "GoType" 1, .newline 1,
        word .defWord "def" 2, name "f" 2, word .leftParen "(" 2, name "n" 2, word .colon ":" 2,
        name "int" 2, word .rightParen ")" 2, word .arrow "->" 2, name "int" 2, word .colon ":" 2,
        .newline 2,
        name "m" 3, word .colon ":" 3, name "int" 3, word .assign "=" 3, name "f" 3,
        word .leftParen "(" 3, name "n" 3, word .rightParen ")" 3, .newline 3,
        word .returnWord "return" 4, name "m" 4, .newline 4, .closeBlock 5,
        word .forWord "for" 5, name "i" 5, word .inWord "in" 5, word .range "range" 5,
        word .leftParen "(" 5, word .intLiteral "0" 5, word .comma "," 5, name "x" 5,
        word .rightParen ")" 5, word .colon ":" 5, .newline 5,
        name "x" 6, word .colon ":" 6, name "int" 6, word .assign "=" 6, name "f" 6,
        word .leftParen "(" 6, name "i" 6, word .rightParen ")" 6, .newline 6, .closeBlock 6]
    let call (argument : String) (line : Nat) : Value :=
      .call (name "f" line) [.terminal (name argument line)]
    let program : Program :=
      ⟨⟨name "GoType" 1, none, 1⟩,
        [.hoisted 0 2,
          .forRange (word .forWord "for" 5) (name "i" 5) (word .intLiteral "0" 5) (name "x" 5)
            ⟨5, [.declaration (name "x" 6) (name "int" 6) (call "i" 6)]⟩],
        [⟨word .defWord "def" 2, name "f" 2, [⟨name "n" 2, name "int" 2⟩], some (name "int" 2),
          ⟨2, [.declaration (name "m" 3) (name "int" 3) (call "n" 3),
            .returnValue (word .returnWord "return" 4) (name "m" 4)]⟩⟩]⟩
    (Program.parse tokens).outcome = .ok program ∧
      ∀ place statement, program.Occurs place statement →
        place.Obeys ⟨[⟨"x", "int"⟩], [], program.functions⟩ statement := by
  intro word name tokens call program
  have isParsed : (Program.parse tokens).outcome = .ok program := by cbv
  refine ⟨isParsed, (analyze_exact tokens program isParsed [⟨"x", "int"⟩] []).mp ?_⟩
  cbv

end Offside
