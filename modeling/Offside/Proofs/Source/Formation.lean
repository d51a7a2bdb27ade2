import Offside.Proofs.Layout.Depth
import Offside.Proofs.Source.Phases
import Offside.Proofs.Source.Printing
import Offside.Proofs.Token.Lexemes

/-!
# Programs of sources are well formed

Every program that a source has can be written out. The leaves have kinds that the
grammar admits at their places, and their texts are those that scanning gives to these
kinds. Blocks are not empty and chains start with one branch, because the grammar has
no others. The functions are numbered in the order in which their definitions end: a
definition is appended when its body has ended, and until then only definitions inside
the body are.
-/

namespace Offside

open Grammar

/-! ## Leaves -/

/-- A token that may stand at its place is spelled if it is genuine and if no kind
    without a spelling may stand there. -/
theorem fits_of_genuine {token : Token} {admitted : Token → Prop} (genuine : token.Genuine)
    (isAdmitted : admitted token)
    (isLeaf : token.kind ∉ [Kind.illegal, .newline, .indent, .closeBlock]) :
    token.Fits admitted :=
  ⟨isAdmitted, genuine.spelled isLeaf⟩

/-- A genuine token of a kind that has a spelling fits a place where this kind is asked for. -/
theorem fits_kind {token : Token} {kind : Kind} (genuine : token.Genuine)
    (isKind : token.kind = kind)
    (isLeaf : kind ∉ [Kind.illegal, .newline, .indent, .closeBlock]) :
    token.Fits (·.kind = kind) :=
  fits_of_genuine genuine isKind (isKind ▸ isLeaf)

/-- A name fits where a name is asked for, since it was scanned with a text of its own. -/
theorem fits_name {token : Token} (genuine : token.Genuine) (isName : token.kind = .identifier) :
    token.Fits (·.kind = .identifier) :=
  fits_kind genuine isName (by decide)

/-- A literal is no illegal token, and it is none of the tokens that stand for layout. These kinds
    have no text that could be written out. -/
theorem literal_isLeaf {token : Token} (isLiteral : Literal token) :
    token.kind ∉ [Kind.illegal, .newline, .indent, .closeBlock] := by
  simp only [Literal, List.mem_cons, List.not_mem_nil, or_false] at isLiteral
  rcases isLiteral with kind | kind | kind | kind <;> rw [kind] <;> decide

/-- An operand is none of these either, for it is a name or a literal. -/
theorem operand_isLeaf {token : Token} (isOperand : Operand token) :
    token.kind ∉ [Kind.illegal, .newline, .indent, .closeBlock] := by
  rcases isOperand with kind | isLiteral
  · rw [kind]
    decide
  · exact literal_isLeaf isLiteral

/-- A genuine operand fits the place of an operand, as a name or as a literal. -/
theorem fits_operand {token : Token} (genuine : token.Genuine) (isOperand : Operand token) :
    token.Fits Operand :=
  fits_of_genuine genuine isOperand (operand_isLeaf isOperand)

/-- A genuine bound of a loop fits its place, since both kinds of bounds can be written out. -/
theorem fits_bound {token : Token} (genuine : token.Genuine) (isBound : Bound token) :
    token.Fits Bound := by
  refine fits_of_genuine genuine isBound ?_
  rcases isBound with kind | kind <;> rw [kind] <;> decide

/-- A genuine callee fits its place. It may be the word for printing, which is spelled as itself. -/
theorem fits_callee {token : Token} (genuine : token.Genuine) (isCallee : Callee token) :
    token.Fits Callee := by
  refine fits_of_genuine genuine isCallee ?_
  rcases isCallee with kind | kind <;> rw [kind] <;> decide

/-- A genuine operator fits its place between two operands, as it is spelled by the one text of its
    kind. -/
theorem fits_operator {token : Token} (genuine : token.Genuine) (isOperator : Operator token) :
    token.Fits Operator := by
  refine fits_of_genuine genuine isOperator ?_
  simp only [Operator, List.mem_cons, List.not_mem_nil, or_false] at isOperator
  rcases isOperator with kind | kind | kind | kind | kind <;> rw [kind] <;> decide

/-- A genuine comparator fits its place between two expressions, as it is spelled by the one text of
    its kind. -/
theorem fits_comparator {token : Token} (genuine : token.Genuine)
    (isComparator : Comparator token) : token.Fits Comparator := by
  refine fits_of_genuine genuine isComparator ?_
  simp only [Comparator, List.mem_cons, List.not_mem_nil, or_false] at isComparator
  rcases isComparator with kind | kind | kind | kind | kind | kind <;> rw [kind] <;> decide

/-! ## Lines -/

/-- All tokens are genuine. -/
def AllGenuine (tokens : List Token) : Prop :=
  ∀ token ∈ tokens, token.Genuine

/-- A list is genuine exactly if its first token and the others are. -/
@[simp]
theorem allGenuine_cons {token : Token} {tokens : List Token} :
    AllGenuine (token :: tokens) ↔ token.Genuine ∧ AllGenuine tokens :=
  List.forall_mem_cons

/-- Two stretches are genuine exactly if both are. Derivations are stretches put together, and each
    part is looked at on its own. -/
@[simp]
theorem allGenuine_append {tokens others : List Token} :
    AllGenuine (tokens ++ others) ↔ AllGenuine tokens ∧ AllGenuine others :=
  List.forall_mem_append

/-- An expression of genuine tokens is well formed. Its operator stands between operands, as the
    grammar has it. -/
theorem expression_wellFormed {tokens : List Token} {value : Expression}
    (derived : ExpressionOf tokens value) (genuine : AllGenuine tokens) : value.WellFormed := by
  cases derived with
  | operand left isOperand =>
      simp only [allGenuine_cons] at genuine
      exact ⟨fits_operand genuine.1 isOperand, by simp⟩
  | operation left operator right leftOperand isOperator rightOperand =>
      simp only [allGenuine_cons] at genuine
      obtain ⟨leftGenuine, operatorGenuine, rightGenuine, -⟩ := genuine
      refine ⟨fits_operand leftGenuine leftOperand, ?_⟩
      rintro _ _ ⟨⟩
      exact ⟨fits_operator operatorGenuine isOperator, fits_operand rightGenuine rightOperand⟩

/-- A condition that genuine tokens derive is well-formed, with a comparator between its expressions
    if there is one. -/
theorem comparison_wellFormed {tokens : List Token} {condition : Comparison}
    (derived : ComparisonOf tokens condition) (genuine : AllGenuine tokens) :
    condition.WellFormed := by
  cases derived with
  | expression tokens left leftSide =>
      exact ⟨expression_wellFormed leftSide genuine, by simp⟩
  | compared leftTokens rightTokens comparator left right leftSide isComparator rightSide =>
      simp only [allGenuine_append, allGenuine_cons] at genuine
      obtain ⟨leftGenuine, comparatorGenuine, rightGenuine⟩ := genuine
      refine ⟨expression_wellFormed leftSide leftGenuine, ?_⟩
      rintro _ _ ⟨⟩
      exact ⟨fits_comparator comparatorGenuine isComparator,
        expression_wellFormed rightSide rightGenuine⟩

/-- The tokens of a list are those of its items, apart from the commas. -/
theorem listed_genuine {items : List (List Token)} {tokens : List Token}
    (listed : Listed items tokens) (genuine : AllGenuine tokens) :
    ∀ item ∈ items, AllGenuine item := by
  induction listed with
  | none => simp
  | one item => simpa using genuine
  | more item next items comma tokens isComma later ih =>
      simp only [allGenuine_append, allGenuine_cons] at genuine
      exact List.forall_mem_cons.mpr ⟨genuine.1, ih genuine.2.2⟩

/-- An argument that genuine tokens derive is well-formed, however deep calls nest in it. The
    induction is on the derivation of the argument. -/
theorem argument_wellFormed {tokens : List Token} {value : Value}
    (derived : ArgumentOf tokens value) (genuine : AllGenuine tokens) : value.WellFormed := by
  induction derived with
  | operand token isOperand =>
      simp only [allGenuine_cons] at genuine
      exact .terminal token (fits_operand genuine.1 isOperand)
  | call callee left right parts inner isCallee opens closes listed derived ih =>
      simp only [allGenuine_cons, allGenuine_append] at genuine
      refine .call callee _ (fits_callee genuine.1 isCallee) ?_
      intro argument member
      obtain ⟨part, isPart, rfl⟩ := List.mem_map.mp member
      exact ih part isPart (listed_genuine listed genuine.2.2.1 part.1 (List.mem_map_of_mem isPart))

/-- The initial value of a declaration is a literal or a call, and well formed as such. -/
theorem initial_wellFormed {tokens : List Token} {value : Value}
    (derived : InitialOf tokens value) (genuine : AllGenuine tokens) : value.Initial := by
  cases derived with
  | call tokens callee arguments derived =>
      refine ⟨argument_wellFormed derived genuine, ?_⟩
      rintro token ⟨⟩
  | literal token isLiteral =>
      simp only [allGenuine_cons] at genuine
      refine ⟨.terminal token (fits_operand genuine.1 (.inr isLiteral)), ?_⟩
      rintro _ ⟨⟩
      exact isLiteral

/-- A simple statement of genuine tokens is well formed, by a look at its four forms. -/
theorem simple_wellFormed {tokens : List Token} {statement : Statement}
    (derived : SimpleOf tokens statement) (genuine : AllGenuine tokens) :
    statement.WellFormed := by
  cases derived with
  | declaration name colon type assign tokens value isName isColon isType isAssign initial =>
      simp only [allGenuine_cons] at genuine
      obtain ⟨nameGenuine, -, typeGenuine, -, valueGenuine⟩ := genuine
      exact .declaration name type value (fits_name nameGenuine isName)
        (fits_name typeGenuine isType) (initial_wellFormed initial valueGenuine)
  | manipulation target assign tokens value isTarget isAssign assigned =>
      simp only [allGenuine_cons] at genuine
      exact .manipulation target value (fits_name genuine.1 isTarget)
        (expression_wellFormed assigned genuine.2.2)
  | call tokens callee arguments derived =>
      exact .call callee arguments (argument_wellFormed derived genuine)
  | returnValue keyword value isReturn isOperand =>
      simp only [allGenuine_cons] at genuine
      exact .returnValue keyword value (fits_kind genuine.1 isReturn (by decide))
        (fits_operand genuine.2.1 isOperand)

/-! ## Blocks -/

/-- The block is not empty, and its statements are well formed. -/
def Block.WellFormed (body : Block Statement) : Prop :=
  body.statements ≠ [] ∧ ∀ statement ∈ body.statements, statement.WellFormed

/-- A branch after the first of a chain. -/
structure Branch.Continues (branch : Branch Statement) : Prop where
  keyword : branch.keyword.Fits (·.kind = .elifWord)
  condition : branch.condition.WellFormed
  body : branch.body.WellFormed

/-- Every part of the phrase is well formed. -/
def Grammar.Phrase.WellFormed : Phrase → Prop
  | .block body => body.WellFormed
  | .continuation branches otherwise =>
      (∀ branch ∈ branches, branch.Continues) ∧ ∀ body ∈ otherwise, body.WellFormed
  | .compound statement => statement.WellFormed
  | .statements list => ∀ statement ∈ list, statement.WellFormed

/-- Parameters are well formed, each with a name and with the name of a type. -/
theorem parameters_wellFormed {tokens : List Token} {parameters : List Parameter}
    (derived : ParametersOf tokens parameters) (genuine : AllGenuine tokens) :
    ∀ parameter ∈ parameters, parameter.WellFormed := by
  obtain ⟨parts, listed, derived, rfl⟩ := derived
  intro parameter member
  obtain ⟨part, isPart, rfl⟩ := List.mem_map.mp member
  have partGenuine := listed_genuine listed genuine part.1 (List.mem_map_of_mem isPart)
  obtain ⟨tokens, parameter⟩ := part
  cases derived _ isPart with
  | typed name colon type isName isColon isType =>
      simp only [allGenuine_cons] at partGenuine
      exact ⟨fits_name partGenuine.1 isName, fits_name partGenuine.2.2.1 isType⟩

/-- The result type of a function is a name, if there is one. -/
theorem result_wellFormed {tokens : List Token} {returns : Option Token}
    (derived : ResultOf tokens returns) (genuine : AllGenuine tokens) :
    ∀ type ∈ returns, type.Fits (·.kind = .identifier) := by
  cases derived with
  | missing => simp
  | null arrow type isArrow isNull => simp
  | named arrow type isArrow isName =>
      simp only [allGenuine_cons] at genuine
      rintro _ ⟨⟩
      exact fits_name genuine.2.1 isName

/-- A chain is well formed if its first branch and what continues it are. The first branch has a
    word of its own, and the others share one. -/
theorem ifChain_wellFormed {first : Branch Statement} {branches : List (Branch Statement)}
    {otherwise : Option (Block Statement)} (isIf : first.keyword.Fits (·.kind = .ifWord))
    (compared : first.condition.WellFormed) (inside : first.body.WellFormed)
    (later : (Phrase.continuation branches otherwise).WellFormed) :
    (Statement.ifChain (first :: branches) otherwise).WellFormed := by
  refine .ifChain first branches otherwise isIf
    (fun branch member => (later.1 branch member).keyword) ?_ ?_ ?_
    (fun body member => (later.2 body member).1) (fun body member => (later.2 body member).2)
  · exact List.forall_mem_cons.mpr ⟨compared, fun branch member => (later.1 branch member).condition⟩
  · exact List.forall_mem_cons.mpr ⟨inside.1, fun branch member => (later.1 branch member).body.1⟩
  · exact List.forall_mem_cons.mpr ⟨inside.2, fun branch member => (later.1 branch member).body.2⟩

/-- What genuine tokens stand for is well formed, and so are the functions that they
    define. -/
theorem derives_wellFormed {first : Nat} {tokens : List Token} {phrase : Phrase}
    {functions : List Definition} (derived : Derives first tokens phrase functions)
    (genuine : AllGenuine tokens) :
    phrase.WellFormed ∧ ∀ definition ∈ functions, definition.WellFormed := by
  induction derived with
  | block first colon newline close tokens statements functions isColon isBreak isClose nonempty
      derived ih =>
      simp only [allGenuine_cons, allGenuine_append] at genuine
      obtain ⟨inside, defined⟩ := ih genuine.2.2.1
      exact ⟨⟨nonempty, inside⟩, defined⟩
  | chainEnd first => exact ⟨⟨by simp, by simp⟩, by simp⟩
  | otherwise first gap keyword tokens body functions breaks isElse derived ih =>
      simp only [allGenuine_cons, allGenuine_append] at genuine
      obtain ⟨inside, defined⟩ := ih genuine.2.2
      refine ⟨⟨by simp, ?_⟩, defined⟩
      rintro _ ⟨⟩
      exact inside
  | branch first gap keyword condition tokens later comparison body branches otherwise functions
      laterFunctions breaks isElif compared derived continued ih laterIh =>
      simp only [allGenuine_cons, allGenuine_append] at genuine
      obtain ⟨-, keywordGenuine, conditionGenuine, bodyGenuine, laterGenuine⟩ := genuine
      obtain ⟨inside, defined⟩ := ih bodyGenuine
      obtain ⟨after, laterDefined⟩ := laterIh laterGenuine
      refine ⟨⟨List.forall_mem_cons.mpr ⟨?_, after.1⟩, after.2⟩,
        List.forall_mem_append.mpr ⟨defined, laterDefined⟩⟩
      exact ⟨fits_kind keywordGenuine isElif (by decide),
        comparison_wellFormed compared conditionGenuine, inside⟩
  | forRange first keyword counter inside range left start comma stop right tokens body functions
      isFor isCounter isIn isRange opens startBound isComma stopBound closes derived ih =>
      simp only [allGenuine_cons] at genuine
      obtain ⟨keywordGenuine, counterGenuine, -, -, -, startGenuine, -, stopGenuine, -,
        bodyGenuine⟩ := genuine
      obtain ⟨inside, defined⟩ := ih bodyGenuine
      exact ⟨Statement.WellFormed.forRange keyword counter start stop body
        (fits_kind keywordGenuine isFor (by decide))
        (fits_name counterGenuine isCounter) (fits_bound startGenuine startBound)
        (fits_bound stopGenuine stopBound) inside.1 inside.2, defined⟩
  | whileLoop first keyword condition tokens comparison body functions isWhile compared derived
      ih =>
      simp only [allGenuine_cons, allGenuine_append] at genuine
      obtain ⟨keywordGenuine, conditionGenuine, bodyGenuine⟩ := genuine
      obtain ⟨inside, defined⟩ := ih bodyGenuine
      exact ⟨Statement.WellFormed.whileLoop keyword comparison body
        (fits_kind keywordGenuine isWhile (by decide))
        (comparison_wellFormed compared conditionGenuine) inside.1 inside.2, defined⟩
  | ifChain first keyword condition tokens later comparison body branches otherwise functions
      laterFunctions isIf compared derived continued ih laterIh =>
      simp only [allGenuine_cons, allGenuine_append] at genuine
      obtain ⟨keywordGenuine, conditionGenuine, bodyGenuine, laterGenuine⟩ := genuine
      obtain ⟨inside, defined⟩ := ih bodyGenuine
      obtain ⟨after, laterDefined⟩ := laterIh laterGenuine
      exact ⟨ifChain_wellFormed (fits_kind keywordGenuine isIf (by decide))
        (comparison_wellFormed compared conditionGenuine) inside after,
        List.forall_mem_append.mpr ⟨defined, laterDefined⟩⟩
  | definition first keyword name left right inner resultTokens tokens parameters returns body
      functions isDef isName opens listed closes result derived ih =>
      simp only [allGenuine_cons, allGenuine_append] at genuine
      obtain ⟨keywordGenuine, nameGenuine, -, innerGenuine, -, resultGenuine, bodyGenuine⟩ := genuine
      obtain ⟨inside, defined⟩ := ih bodyGenuine
      refine ⟨Statement.WellFormed.hoisted _ _, List.forall_mem_append.mpr ⟨defined, ?_⟩⟩
      rw [List.forall_mem_singleton]
      exact ⟨fits_kind keywordGenuine isDef (by decide), fits_name nameGenuine isName,
        parameters_wellFormed listed innerGenuine, result_wellFormed result resultGenuine,
        inside.1, inside.2⟩
  | listEnd first gap breaks => exact ⟨by simp [Phrase.WellFormed], by simp⟩
  | simple first gap tokens later statement statements functions breaks derived ends continued ih =>
      simp only [allGenuine_append] at genuine
      obtain ⟨after, defined⟩ := ih genuine.2.2
      exact ⟨List.forall_mem_cons.mpr ⟨simple_wellFormed derived genuine.2.1, after⟩, defined⟩
  | compound first gap tokens later statement statements functions laterFunctions breaks derived
      continued ih laterIh =>
      simp only [allGenuine_append] at genuine
      obtain ⟨here, defined⟩ := ih genuine.2.1
      obtain ⟨after, laterDefined⟩ := laterIh genuine.2.2
      exact ⟨List.forall_mem_cons.mpr ⟨here, after⟩,
        List.forall_mem_append.mpr ⟨defined, laterDefined⟩⟩

/-! ## Numbers -/

/-- The functions whose definitions end in a phrase. -/
def Grammar.Phrase.ended (earlier : List (List Nat)) : Phrase → List Nat
  | .block body => body.ended earlier
  | .continuation branches otherwise =>
      Branch.endedAll earlier branches ++
        match otherwise with
        | none => []
        | some body => body.ended earlier
  | .compound statement => statement.ended earlier
  | .statements list => Statement.endedAll earlier list

/-- No definition ends in a simple statement. -/
theorem simple_ended {tokens : List Token} {statement : Statement}
    (derived : SimpleOf tokens statement) (earlier : List (List Nat)) :
    statement.ended earlier = [] := by
  cases derived <;> simp [Statement.ended]

/-- The definitions that end in a phrase are those that its tokens define, in the order
    of their numbers. -/
theorem derives_ended {first : Nat} {tokens : List Token} {phrase : Phrase}
    {defined : List Definition} (derived : Derives first tokens phrase defined)
    {functions : List Definition} (located : Located functions first defined) :
    phrase.ended (Definition.endings functions) = List.range' first defined.length := by
  induction derived generalizing functions with
  | block first colon newline close tokens statements defined isColon isBreak isClose nonempty
      derived ih =>
      simp only [Phrase.ended, Block.ended]
      exact ih located
  | chainEnd first => simp [Phrase.ended, Branch.endedAll]
  | otherwise first gap keyword tokens body defined breaks isElse derived ih =>
      simp only [Phrase.ended, Branch.endedAll, List.nil_append]
      exact ih located
  | branch first gap keyword condition tokens later comparison body branches otherwise defined
      laterDefined breaks isElif compared derived continued ih laterIh =>
      obtain ⟨here, after⟩ := located_append located
      rw [List.length_append, ← List.range'_append_1, ← ih here, ← laterIh after]
      simp only [Phrase.ended, Branch.endedAll, List.append_assoc]
  | forRange first keyword counter inside range left start comma stop right tokens body defined
      isFor isCounter isIn isRange opens startBound isComma stopBound closes derived ih =>
      simp only [Phrase.ended, Statement.ended]
      exact ih located
  | whileLoop first keyword condition tokens comparison body defined isWhile compared derived
      ih =>
      simp only [Phrase.ended, Statement.ended]
      exact ih located
  | ifChain first keyword condition tokens later comparison body branches otherwise defined
      laterDefined isIf compared derived continued ih laterIh =>
      obtain ⟨here, after⟩ := located_append located
      rw [List.length_append, ← List.range'_append_1, ← ih here, ← laterIh after]
      cases otherwise <;>
        simp only [Phrase.ended, Statement.ended, Branch.endedAll, List.append_assoc]
  | definition first keyword name left right inner resultTokens tokens parameters returns body
      defined isDef isName opens listed closes result derived ih =>
      obtain ⟨here, last⟩ := located_append located
      have found := last 0 (by simp)
      rw [Nat.add_zero] at found
      -- The body is numbered by the functions before its own, and these are the same.
      have earlier : Located (functions.take (first + defined.length)) first defined := by
        intro index inside
        rw [List.getElem?_take_of_lt (by omega)]
        exact here index inside
      have inside := ih earlier
      simp only [Phrase.ended] at inside
      simp only [Phrase.ended, Statement.ended, Definition.endings, accumulate_getElem?, found]
      rw [List.length_append, List.length_singleton, ← List.range'_append_1]
      simpa [Definition.endings] using inside
  | listEnd first gap breaks => simp [Phrase.ended, Statement.endedAll]
  | simple first gap tokens later statement statements defined breaks derived ends continued ih =>
      simp only [Phrase.ended, Statement.endedAll, simple_ended derived, List.nil_append]
      exact ih located
  | compound first gap tokens later statement statements defined laterDefined breaks derived
      continued ih laterIh =>
      obtain ⟨here, after⟩ := located_append located
      rw [List.length_append, ← List.range'_append_1, ← ih here, ← laterIh after]
      simp only [Phrase.ended, Statement.endedAll]

/-! ## Programs -/

/-- The import clause is well formed. It names the runtime as a whole or one item of it. -/
theorem import_wellFormed {tokens : List Token} {clause : ImportClause}
    (derived : ImportOf tokens clause) (genuine : AllGenuine tokens) : clause.WellFormed := by
  cases derived with
  | whole keyword module isImport isName isRuntime => exact ⟨⟨isName, isRuntime⟩, by simp⟩
  | part keyword module importing item isFrom isName isRuntime isImport isItem =>
      simp only [allGenuine_cons] at genuine
      refine ⟨⟨isName, isRuntime⟩, ?_⟩
      rintro _ ⟨⟩
      refine fits_of_genuine genuine.2.2.2.1 isItem ?_
      rcases isItem with kind | kind <;> rw [kind] <;> decide

/-- The program of a source is well formed: its tokens are genuine, since scanning and layout make
    no others, and its functions are numbered as their definitions end. -/
theorem parsed_wellFormed {source : List UInt8} {program : Program}
    (isParsed : (parsed source).outcome = .ok program) : program.WellFormed := by
  obtain ⟨tokens, layout, scanned, laidOut, derived⟩ := (parsed_ok_iff source program).mp isParsed
  have genuine : AllGenuine layout.tokens := layout_genuine laidOut (scan_genuine scanned)
  generalize layout.tokens = laid at derived genuine
  cases derived with
  | program gap clauseTokens tokens clause body functions breaks imported ends derived =>
      simp only [allGenuine_append] at genuine
      obtain ⟨-, clauseGenuine, bodyGenuine⟩ := genuine
      obtain ⟨inside, defined⟩ := derives_wellFormed derived bodyGenuine
      refine ⟨import_wellFormed imported clauseGenuine, inside, defined, ?_⟩
      have located : Located functions 0 functions := fun index _ => by rw [Nat.zero_add]
      rw [List.range_eq_range']
      exact derives_ended derived located

end Offside
