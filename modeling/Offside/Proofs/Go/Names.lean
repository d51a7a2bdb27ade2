import Offside.Proofs.Go.Written
import Offside.Proofs.Source.Compilation
import Offside.Proofs.Source.Formation

/-!
# Names of a package

A Go file declares functions next to one another, however deep their definitions stood in
the source, and it declares `main`. Read off its text, the declared names are those that
follow `def` in the source, and `main`. Static analysis looks at one block at a time, so it
accepts definitions that share a name or are called `main`; the file then declares that name
twice.
-/

namespace Offside

open Grammar

/-! ## The text of a file -/

namespace Go

/-- The name of the function that a line declares. Only a line without tabs is one of the
    package. -/
def functionName? (line : List Char) : Option String :=
  if "func ".toList <+: line then some (String.ofList ((line.drop 5).takeWhile (· != '(')))
  else none

/-- The names of the functions that a file declares, in order. -/
def packageNames (text : String) : List String :=
  (text.toList.splitOn '\n').filterMap functionName?

/-- What stands on a row holds no line break, neither in the tabs in front nor in its parts. -/
theorem Row.no_break {row : Row} (legible : row.Legible) : ∀ char ∈ row.content, char ≠ '\n' := by
  cases row with
  | blank => exact List.forall_mem_nil _
  | code depth parts =>
      refine List.forall_mem_append.mpr ⟨fun char tab => ?_, Part.no_break legible.2⟩
      rw [List.eq_of_mem_replicate tab]
      decide

/-- Cut at its line breaks, a file falls into its rows. Nothing stands after the last break. -/
theorem Row.splitOn_renderAll {rows : List Row} (legible : ∀ row ∈ rows, row.Legible) :
    (Line.renderAll (rows.map Row.line)).toList.splitOn '\n' = rows.map Row.content ++ [[]] := by
  rw [Row.renderAll_eq, List.splitOn_eq_splitOnP]
  induction rows with
  | nil => decide
  | cons row rows ih =>
      rw [List.forall_mem_cons] at legible
      have inside : ∀ char ∈ row.content, (char == '\n') = false := fun char member =>
        beq_false_of_ne (Row.no_break legible.1 char member)
      rw [List.flatMap_cons, List.append_assoc, List.singleton_append,
        List.splitOnP_append_cons_of_forall_mem inside '\n' (by decide), ih legible.2,
        List.map_cons, List.cons_append]

/-- The names in a file are read off its rows one by one, since cutting the text at its line breaks
    gives the contents of the rows back. -/
theorem packageNames_rows {rows : List Row} (legible : ∀ row ∈ rows, row.Legible) :
    packageNames (Line.renderAll (rows.map Row.line)) =
      rows.filterMap fun row => functionName? row.content := by
  have last : [[]].filterMap functionName? = [] := by decide
  rw [packageNames, Row.splitOn_renderAll legible, List.filterMap_append, last, List.append_nil,
    List.filterMap_map]
  rfl

/-- The row is blank or stands at least so deep. -/
def Row.AtLeast (depth : Nat) : Row → Prop
  | blank => True
  | code level _ => depth ≤ level

/-- A row that stands deeper than the margin declares no function of the package, for it starts with
    a tab. -/
theorem functionName?_deep {row : Row} {depth : Nat} (deep : row.AtLeast (depth + 1)) :
    functionName? row.content = none := by
  cases row with
  | blank => decide
  | code level parts =>
      obtain ⟨level, rfl⟩ := Nat.exists_eq_add_of_le' (Nat.le_of_add_left_le deep)
      simp [functionName?, Row.content, List.replicate_succ]

/-- If all rows inside a block stand at some depth or deeper, so do the rows of the block with its
    header and its end. -/
theorem Row.atLeast_block {depth : Nat} {parts : List Part} {rows : List Row}
    (inside : ∀ row ∈ rows, row.AtLeast depth) :
    ∀ row ∈ Row.header depth parts :: (rows ++ [Row.close depth]), row.AtLeast depth :=
  List.forall_mem_cons.mpr ⟨Nat.le_refl depth, List.forall_mem_append.mpr
    ⟨inside, List.forall_mem_singleton.mpr (Nat.le_refl depth)⟩⟩

end Go

open Go

mutual

/-- Every row of a statement stands at its depth or deeper. The recursion is on the statement, its
    blocks and its branches together. -/
theorem statement_atLeast (depth : Nat) : ∀ statement : Statement,
    ∀ row ∈ statement.rows depth, row.AtLeast depth
  | .declaration .. | .manipulation .. | .call .. | .returnValue .. => by
      simp [Statement.rows, Row.AtLeast]
  | .hoisted .. => by simp [Statement.rows, Row.AtLeast]
  | .forRange _ _ _ _ body => by
      rw [Statement.rows]
      exact Row.atLeast_block (block_atLeast depth body)
  | .whileLoop _ _ body => by
      rw [Statement.rows]
      exact Row.atLeast_block (block_atLeast depth body)
  | .ifChain branches none => by
      rw [Statement.rows]
      exact List.forall_mem_append.mpr ⟨branches_atLeast depth _ branches,
        List.forall_mem_singleton.mpr (Nat.le_refl depth)⟩
  | .ifChain branches (some body) => by
      rw [Statement.rows]
      exact List.forall_mem_append.mpr ⟨branches_atLeast depth _ branches,
        Row.atLeast_block (block_atLeast depth body)⟩

/-- The rows of a block stand deeper than its header, one level at least, so none of them is at the
    depth of the header. -/
theorem block_atLeast (depth : Nat) : ∀ body : Block Statement,
    ∀ row ∈ body.rows (depth + 1), row.AtLeast depth
  | ⟨_, statements⟩ => by
      intro row member
      rw [Block.rows] at member
      have deep := statements_atLeast (depth + 1) statements row member
      cases row with
      | blank => trivial
      | code level parts => exact Nat.le_of_succ_le deep

/-- The rows of the branches of a chain stand at the depth of the chain, as their headers do, or
    deeper. -/
theorem branches_atLeast (depth : Nat) (opening : List Part) :
    ∀ branches : List (Branch Statement), ∀ row ∈ Branch.rowsAll depth opening branches,
      row.AtLeast depth
  | [] => by simp [Branch.rowsAll]
  | ⟨_, _, body⟩ :: branches => by
      rw [Branch.rowsAll]
      exact List.forall_mem_cons.mpr ⟨Nat.le_refl depth, List.forall_mem_append.mpr
        ⟨block_atLeast depth body, branches_atLeast depth _ branches⟩⟩

/-- The rows of several statements stand at their common depth or deeper, because those of each
    statement do. -/
theorem statements_atLeast (depth : Nat) : ∀ statements : List Statement,
    ∀ row ∈ Statement.rowsAll depth statements, row.AtLeast depth
  | [] => by simp [Statement.rowsAll]
  | statement :: statements => by
      rw [Statement.rowsAll]
      exact List.forall_mem_append.mpr
        ⟨statement_atLeast depth statement, statements_atLeast depth statements⟩

end

/-- No row inside a function declares one, since all of them have a tab in front. So placeholders
    leave no name behind. -/
theorem names_inside (statements : List Statement) :
    (Statement.rowsAll 1 statements).filterMap (fun row => functionName? row.content) = [] := by
  rw [List.filterMap_eq_nil_iff]
  exact fun row member => functionName?_deep (statements_atLeast 1 statements row member)

/-- The header of a function declares its name, which reaches up to the bracket. -/
theorem functionName?_header {name : String} (inside : ∀ char ∈ name.toList, char ≠ '(')
    (parts : List Part) :
    functionName? (Row.header 0
      (.word "func" :: .gap :: .word name :: .mark "(" :: parts)).content = some name := by
  obtain ⟨later, opened⟩ : ∃ later, (Row.header 0
      (.word "func" :: .gap :: .word name :: .mark "(" :: parts)).content =
        "func ".toList ++ (name.toList ++ '(' :: later) :=
    ⟨_, by simp [Row.header, Row.content, Part.textAll, Part.text]; rfl⟩
  have named : (name.toList ++ '(' :: later).takeWhile (· != '(') = name.toList :=
    (Segment.takeWhile_run (by simpa using inside) (by simp)).1
  have past : ("func ".toList ++ (name.toList ++ '(' :: later)).drop 5 =
      name.toList ++ '(' :: later := rfl
  rw [opened, functionName?, if_pos (List.prefix_append _ _), past, named, String.ofList_toList]

/-- A name is spelled in Go as it is written in the source, and there is no bracket in it. -/
theorem name_inside {token : Token} (fits : token.Fits (·.kind = .identifier)) :
    spelling token = token.lexeme ∧ ∀ char ∈ token.lexeme.toList, char ≠ '(' := by
  obtain ⟨isName, spelled⟩ := fits
  refine ⟨by simp [spelling, spelling?, isName], ?_⟩
  simp only [Token.Spelled, isName] at spelled
  obtain ⟨⟨first, rest, chars, letter, inside⟩, -⟩ := spelled
  rw [chars]
  refine List.forall_mem_cons.mpr ⟨?_, fun char member => ?_⟩
  · rintro rfl
    exact absurd letter (by decide)
  · rintro rfl
    exact absurd (inside _ member) (by decide)

/-- The names of functions, in order. -/
def functionNames (functions : List Definition) : List String :=
  functions.map fun definition => definition.name.lexeme

/-- The rows of all functions declare their names, in order. The induction is on the functions, and
    nothing inside a body adds to the names. -/
theorem names_definitions {definitions : List Definition}
    (wellFormed : ∀ definition ∈ definitions, definition.WellFormed) :
    (Definition.rowsAll definitions).filterMap (fun row => functionName? row.content) =
      functionNames definitions := by
  have blank : functionName? Row.blank.content = none := by decide
  have close : functionName? (Row.close 0).content = none := by decide
  induction definitions with
  | nil => rfl
  | cons definition definitions ih =>
      rw [List.forall_mem_cons] at wellFormed
      obtain ⟨spelled, inside⟩ := name_inside wellFormed.1.name
      have header := functionName?_header inside
      have body := names_inside definition.body.statements
      have later := ih wellFormed.2
      rw [Definition.rowsAll, Definition.rows, Token.asWord, spelled, Block.rows_eq]
      simp [blank, header, body, close, later, functionNames]

/-- A file declares the functions of its program in their order, and then `main`. -/
theorem names_program {program : Program} (wellFormed : program.WellFormed) :
    program.rows.filterMap (fun row => functionName? row.content) =
      functionNames program.functions ++ ["main"] := by
  have package : functionName?
      (Row.code 0 [.word "package", .gap, .word "main"]).content = none := by
    simp [functionName?, Row.content, Part.textAll, Part.text]
  have blank : functionName? Row.blank.content = none := by decide
  have close : functionName? (Row.close 0).content = none := by decide
  have main : functionName? (Row.header 0
      [.word "func", .gap, .word "main", .mark "(", .mark ")"]).content = some "main" :=
    functionName?_header (by simp) _
  have functions := names_definitions wellFormed.functions
  have body := names_inside program.body
  rw [Program.rows]
  simp [package, functions, blank, main, body, close]

/-! ## Names in the source -/

/-- The names that follow the word that starts a definition. -/
def definedNames : List Token → List String
  | [] => []
  | token :: rest =>
      if token.kind = .defWord then (rest.head?.map Token.lexeme).toList ++ definedNames rest
      else definedNames rest

/-- No definition starts at one of the tokens. -/
def Undefining (tokens : List Token) : Prop :=
  ∀ token ∈ tokens, token.kind ≠ .defWord

/-- Tokens among which no definition starts add no names to those that come after them, by induction
    on the tokens. -/
theorem definedNames_append {tokens : List Token} (undefining : Undefining tokens)
    (rest : List Token) : definedNames (tokens ++ rest) = definedNames rest := by
  induction tokens with
  | nil => rfl
  | cons token tokens ih =>
      obtain ⟨here, later⟩ := List.forall_mem_cons.mp undefining
      rw [List.cons_append, definedNames, if_neg here, ih later]

/-- No definition starts at a line break, so a gap of them may stand anywhere without a change of
    names. -/
theorem Undefining.of_breaks {gap : List Token} (breaks : Breaks gap) : Undefining gap := by
  intro token member
  rw [breaks token member]
  decide

/-- No definition starts in two stretches of tokens exactly when none starts in either. -/
theorem undefining_append {tokens others : List Token} :
    Undefining (tokens ++ others) ↔ Undefining tokens ∧ Undefining others :=
  List.forall_mem_append

/-- No definition starts in a list exactly when none starts at its first token or after it. -/
theorem undefining_cons {token : Token} {tokens : List Token} :
    Undefining (token :: tokens) ↔ token.kind ≠ .defWord ∧ Undefining tokens :=
  List.forall_mem_cons

/-- No definition starts where there are no tokens, which is how the empty parts of a phrase are
    dealt with. -/
theorem undefining_nil : Undefining [] :=
  List.forall_mem_nil _

/-- An operand is a name or a literal, so no definition starts there. -/
theorem operand_undefining {token : Token} (isOperand : Operand token) :
    token.kind ≠ .defWord := by
  rcases isOperand with isName | isLiteral
  · simp [isName]
  · intro isDef
    rw [Literal, isDef] at isLiteral
    exact absurd isLiteral (by decide)

/-- No definition starts in an expression, which has operands and operators only. -/
theorem expression_undefining {tokens : List Token} {expression : Expression}
    (derived : ExpressionOf tokens expression) : Undefining tokens := by
  cases derived with
  | operand left isOperand =>
      exact undefining_cons.mpr ⟨operand_undefining isOperand, undefining_nil⟩
  | operation left operator right leftOperand isOperator rightOperand =>
      have joins : operator.kind ≠ .defWord := by
        intro isDef
        rw [Operator, isDef] at isOperator
        exact absurd isOperator (by decide)
      simpa [undefining_cons, undefining_nil] using
        ⟨operand_undefining leftOperand, joins, operand_undefining rightOperand⟩

/-- No definition starts in a condition, for it has two expressions and a comparator at most. -/
theorem comparison_undefining {tokens : List Token} {comparison : Comparison}
    (derived : ComparisonOf tokens comparison) : Undefining tokens := by
  cases derived with
  | expression tokens left leftSide => exact expression_undefining leftSide
  | compared leftTokens rightTokens comparator left right leftSide isComparator rightSide =>
      have joins : comparator.kind ≠ .defWord := by
        intro isDef
        rw [Comparator, isDef] at isComparator
        exact absurd isComparator (by decide)
      exact undefining_append.mpr ⟨expression_undefining leftSide,
        undefining_cons.mpr ⟨joins, expression_undefining rightSide⟩⟩

/-- No definition starts in a list with commas if none starts in its items. The induction is on the
    list. -/
theorem listed_undefining {items : List (List Token)} {tokens : List Token}
    (listed : Listed items tokens) (inside : ∀ item ∈ items, Undefining item) :
    Undefining tokens := by
  induction listed with
  | none => exact undefining_nil
  | one item => exact inside item List.mem_cons_self
  | more item next items comma tokens isComma later ih =>
      rw [List.forall_mem_cons] at inside
      exact undefining_append.mpr ⟨inside.1, undefining_cons.mpr ⟨by simp [isComma], ih inside.2⟩⟩

/-- No definition starts in an argument, however deep its calls nest, by induction on how it is
    derived. -/
theorem argument_undefining {tokens : List Token} {value : Value}
    (derived : ArgumentOf tokens value) : Undefining tokens := by
  induction derived with
  | operand token isOperand =>
      exact undefining_cons.mpr ⟨operand_undefining isOperand, undefining_nil⟩
  | call callee left right parts inner isCallee opens closes listed derived ih =>
      have called : callee.kind ≠ .defWord := by
        rcases isCallee with isKind | isKind <;> simp [isKind]
      have items : Undefining inner := listed_undefining listed (List.forall_mem_map.mpr ih)
      simpa [undefining_cons, undefining_append, undefining_nil, opens, closes] using
        ⟨called, items⟩

/-- No definition starts in a statement on one line, in whichever of the four forms it is. -/
theorem simple_undefining {tokens : List Token} {statement : Statement}
    (derived : SimpleOf tokens statement) : Undefining tokens := by
  cases derived with
  | declaration name colon type assign tokens value isName isColon isType isAssign initial =>
      have inside : Undefining tokens := by
        cases initial with
        | call tokens callee arguments derived => exact argument_undefining derived
        | literal token isLiteral => exact argument_undefining (.operand token (.inr isLiteral))
      simpa [undefining_cons, isName, isColon, isType, isAssign] using inside
  | manipulation target assign tokens value isTarget isAssign assigned =>
      simpa [undefining_cons, isTarget, isAssign] using expression_undefining assigned
  | call tokens callee arguments derived => exact argument_undefining derived
  | returnValue keyword value isReturn isOperand =>
      simpa [undefining_cons, undefining_nil, isReturn] using operand_undefining isOperand

/-- No definition starts among parameters, which are names with their types and commas between
    them. -/
theorem parameters_undefining {tokens : List Token} {parameters : List Parameter}
    (derived : ParametersOf tokens parameters) : Undefining tokens := by
  obtain ⟨parts, listed, derived, rfl⟩ := derived
  refine listed_undefining listed (List.forall_mem_map.mpr ?_)
  rintro ⟨partTokens, parameter⟩ isPart
  cases derived _ isPart with
  | typed name colon type isName isColon isType =>
      simp [undefining_cons, undefining_nil, isName, isColon, isType]

/-- No definition starts in a result type, nor in the arrow before it. -/
theorem result_undefining {tokens : List Token} {returns : Option Token}
    (derived : ResultOf tokens returns) : Undefining tokens := by
  cases derived with
  | missing => exact undefining_nil
  | null arrow type isArrow isNull =>
      simp [undefining_cons, undefining_nil, isArrow, isNull]
  | named arrow type isArrow isName =>
      simp [undefining_cons, undefining_nil, isArrow, isName]

/-- No definition starts in an import clause, which has words of its own and names. -/
theorem import_undefining {tokens : List Token} {clause : ImportClause}
    (derived : ImportOf tokens clause) : Undefining tokens := by
  cases derived with
  | whole keyword module isImport isName isRuntime =>
      simp [undefining_cons, undefining_nil, isImport, isName]
  | part keyword module importing item isFrom isName isRuntime isImport isItem =>
      rcases isItem with isItem | isItem <;>
        simp [undefining_cons, undefining_nil, isFrom, isName, isImport, isItem]

/-- The names after `def` in the tokens are those of the functions, in another order. -/
def Names (tokens : List Token) (functions : List Definition) : Prop :=
  ∀ rest, (definedNames (tokens ++ rest)).Perm (functionNames functions ++ definedNames rest)

/-- Tokens in which no definition starts have the names of no function. -/
theorem Undefining.names {tokens : List Token} (undefining : Undefining tokens) :
    Names tokens [] := fun rest => by
  rw [definedNames_append undefining]
  exact .refl _

/-- Two stretches of tokens have the names of the functions of both, if each has those of its
    own. -/
theorem Names.append {tokens others : List Token} {functions laterFunctions : List Definition}
    (names : Names tokens functions) (later : Names others laterFunctions) :
    Names (tokens ++ others) (functions ++ laterFunctions) := by
  intro rest
  have together := (names (others ++ rest)).trans ((later rest).append_left _)
  simpa [functionNames] using together

/-- Tokens in which no definition starts may stand in front of others without a change of names. -/
theorem Names.after {tokens others : List Token} {functions : List Definition}
    (undefining : Undefining tokens) (names : Names others functions) :
    Names (tokens ++ others) functions :=
  undefining.names.append names

/-- Tokens in which no definition starts may stand behind others without a change of names. -/
theorem Names.before {tokens others : List Token} {functions : List Definition}
    (names : Names tokens functions) (undefining : Undefining others) :
    Names (tokens ++ others) functions := by
  have both := names.append undefining.names
  rwa [List.append_nil] at both

/-- A definition is listed when its body has ended, after the definitions in its body. -/
theorem Names.definition {definition : Definition} {tokens : List Token}
    {functions : List Definition} (isDef : definition.keyword.kind = .defWord)
    (isName : definition.name.kind = .identifier) (names : Names tokens functions) :
    Names (definition.keyword :: definition.name :: tokens) (functions ++ [definition]) := by
  intro rest
  have named : definition.name.kind ≠ .defWord := by simp [isName]
  have inside := (names rest).cons definition.name.lexeme
  simp only [List.cons_append, definedNames, if_pos isDef, if_neg named, List.head?_cons,
    Option.map_some, Option.toList_some, List.nil_append]
  refine inside.trans ?_
  rw [functionNames, functionNames, List.map_append, List.append_assoc]
  exact List.perm_middle.symm

/-- Tokens define one function for each `def`, with the name that follows it. -/
theorem derives_names {first : Nat} {tokens : List Token} {phrase : Phrase}
    {functions : List Definition} (derived : Derives first tokens phrase functions) :
    Names tokens functions := by
  induction derived with
  | block first colon newline close tokens statements functions isColon isBreak isClose nonempty
      derived ih =>
      have opens : Undefining [colon, newline] := by
        simp [undefining_cons, undefining_nil, isColon, isBreak]
      have closes : Undefining [close] := by simp [undefining_cons, undefining_nil, isClose]
      exact .after opens (ih.before closes)
  | chainEnd first => exact undefining_nil.names
  | otherwise first gap keyword tokens body functions breaks isElse derived ih =>
      have opens : Undefining [keyword] := by simp [undefining_cons, undefining_nil, isElse]
      exact .after (.of_breaks breaks) (.after opens ih)
  | branch first gap keyword condition tokens later comparison body branches otherwise functions
      laterFunctions breaks isElif compared derived continued ih laterIh =>
      have opens : Undefining [keyword] := by simp [undefining_cons, undefining_nil, isElif]
      exact .after (.of_breaks breaks)
        (.after opens (.after (comparison_undefining compared) (ih.append laterIh)))
  | forRange first keyword counter inside range left start comma stop right tokens body functions
      isFor isCounter isIn isRange opens startBound isComma stopBound closes derived ih =>
      have header :
          Undefining [keyword, counter, inside, range, left, start, comma, stop, right] := by
        have bounds {token : Token} (isBound : Bound token) : token.kind ≠ .defWord := by
          rcases isBound with isKind | isKind <;> simp [isKind]
        simpa [undefining_cons, undefining_nil, isFor, isCounter, isIn, isRange, opens, isComma,
          closes] using ⟨bounds startBound, bounds stopBound⟩
      exact .after header ih
  | whileLoop first keyword condition tokens comparison body functions isWhile compared derived
      ih =>
      have opens : Undefining [keyword] := by simp [undefining_cons, undefining_nil, isWhile]
      exact .after opens (.after (comparison_undefining compared) ih)
  | ifChain first keyword condition tokens later comparison body branches otherwise functions
      laterFunctions isIf compared derived continued ih laterIh =>
      have opens : Undefining [keyword] := by simp [undefining_cons, undefining_nil, isIf]
      exact .after opens (.after (comparison_undefining compared) (ih.append laterIh))
  | definition first keyword name left right inner resultTokens tokens parameters returns body
      functions isDef isName opens listed closes result derived ih =>
      have leftParen : Undefining [left] := by simp [undefining_cons, undefining_nil, opens]
      have rightParen : Undefining [right] := by simp [undefining_cons, undefining_nil, closes]
      have inside : Names (left :: (inner ++ right :: (resultTokens ++ tokens))) functions :=
        .after leftParen (.after (parameters_undefining listed)
          (.after rightParen (.after (result_undefining result) ih)))
      exact @Names.definition ⟨keyword, name, parameters, returns, body⟩ _ _ isDef isName inside
  | listEnd first gap breaks => exact (Undefining.of_breaks breaks).names
  | simple first gap tokens later statement statements functions breaks derived ends continued ih =>
      exact .after (.of_breaks breaks) (.after (simple_undefining derived) ih)
  | compound first gap tokens later statement statements functions laterFunctions breaks derived
      continued ih laterIh =>
      exact .after (.of_breaks breaks) (ih.append laterIh)

/-- The names after `def` in the tokens of a program are those of its functions. They are in another
    order if definitions are nested, as the inner one ends first. -/
theorem program_names {tokens : List Token} {program : Program}
    (derived : ProgramOf tokens program) :
    (definedNames tokens).Perm (functionNames program.functions) := by
  cases derived with
  | program gap clauseTokens tokens clause body functions breaks imported ends derived =>
      have names : Names (gap ++ (clauseTokens ++ tokens)) functions :=
        .after (.of_breaks breaks) (.after (import_undefining imported) (derives_names derived))
      simpa [definedNames] using names []

/-! ## Sources -/

/-- The Go file of a source declares the functions of its program and `main`. -/
theorem packageNames_compile {source : List UInt8} {program : Program} {text : String}
    (isParsed : (parsed source).outcome = .ok program)
    (compiled : (compile source).outcome = .ok text) :
    packageNames text = functionNames program.functions ++ ["main"] := by
  have wellFormed := parsed_wellFormed isParsed
  rcases compile_run isParsed with ⟨-, written⟩ | ⟨_, _, -, failed⟩
  · rw [written] at compiled
    cases compiled
    rw [packageNames_rows (program_legible wellFormed), names_program wellFormed]
  · rw [failed] at compiled
    cases compiled

/-- The Go file of a source that compiles declares the function of each `def`, under its name,
    and `main`. So it declares every name once exactly when no two definitions have one name
    and none is called `main`. -/
theorem packageNames_nodup_iff {source : List UInt8} {text : String}
    (compiled : (compile source).outcome = .ok text) :
    ∃ tokens layout program, Token.scan source = .ok tokens ∧
      Layout.ofTokens tokens = .ok layout ∧ (parsed source).outcome = .ok program ∧
      packageNames text = functionNames program.functions ++ ["main"] ∧
      (definedNames layout.tokens).Perm (functionNames program.functions) ∧
      ((packageNames text).Nodup ↔
        (definedNames layout.tokens).Nodup ∧ "main" ∉ definedNames layout.tokens) := by
  cases isParsed : (parsed source).outcome with
  | error failure =>
      rw [(compile_failure isParsed).1] at compiled
      cases compiled
  | ok program =>
      obtain ⟨tokens, layout, scanned, laid, derived⟩ := (parsed_ok_iff source program).mp isParsed
      have declared := packageNames_compile isParsed compiled
      have names := program_names derived
      refine ⟨tokens, layout, program, scanned, laid, rfl, declared, names, ?_⟩
      rw [declared, List.nodup_append_comm, List.singleton_append, List.nodup_cons,
        names.nodup_iff, names.mem_iff, and_comm]

/-- A function inside another one, with another name. The inner one is declared first, since its
    body ends first. -/
theorem packageNames_nodup_iff_nested :
    let source := Utf8.encode
      "import GoType\ndef f():\n    def g():\n        print(1)\n    g()\nf()\n"
    ∃ text, (compile source).outcome = .ok text ∧ packageNames text = ["g", "f", "main"] ∧
      (packageNames text).Nodup := by
  intro source
  let word (kind : Kind) (lexeme : String) (line : Nat) : Token := ⟨kind, lexeme, line⟩
  let name (lexeme : String) (line : Nat) : Token := word .identifier lexeme line
  let header (lexeme : String) (line : Nat) : List Token :=
    [word .defWord "def" line, name lexeme line, word .leftParen "(" line,
      word .rightParen ")" line, word .colon ":" line, .newline line]
  let call (lexeme : String) (line : Nat) : List Token :=
    [name lexeme line, word .leftParen "(" line, word .rightParen ")" line, .newline line]
  let tokens : List Token :=
    [word .importWord "import" 1, name "GoType" 1, .newline 1] ++ header "f" 2 ++
      [.indent 3] ++ header "g" 3 ++
      [.indent 4, .indent 4, word .print "print" 4, word .leftParen "(" 4,
        word .intLiteral "1" 4, word .rightParen ")" 4, .newline 4] ++
      [.indent 5] ++ call "g" 5 ++ call "f" 6
  let program : Program :=
    ⟨⟨name "GoType" 1, none, 1⟩, [.hoisted 1 2, .call (name "f" 6) []],
      [⟨word .defWord "def" 3, name "g" 3, [], none,
          ⟨3, [.call (word .print "print" 4) [.terminal (word .intLiteral "1" 4)]]⟩⟩,
        ⟨word .defWord "def" 2, name "f" 2, [], none,
          ⟨2, [.hoisted 0 3, .call (name "g" 5) []]⟩⟩]⟩
  have scanned : Token.scan source = .ok tokens := by
    dsimp only [source, tokens, header, call, name, word]
    cbv
  obtain ⟨layout, laid⟩ : ∃ layout, Layout.ofTokens tokens = .ok layout := ⟨_, rfl⟩
  have isProgram : (Program.parse layout.tokens).outcome = .ok program := by
    cases laid
    dsimp only [tokens, program, header, call, name, word]
    cbv
  have accepted : (program.analyze [] []).outcome = .ok () := rfl
  have isParsed := parsed_of_phases scanned laid isProgram
  obtain ⟨-, compiled⟩ | ⟨_, _, rejected, -⟩ := compile_run isParsed
  · obtain ⟨_, _, other, -, -, otherParsed, declared, -, -⟩ := packageNames_nodup_iff compiled
    rw [isParsed] at otherParsed
    cases otherParsed
    refine ⟨_, compiled, declared, ?_⟩
    rw [declared]
    decide
  · rw [accepted] at rejected
    cases rejected

/-- Two functions of one name compile, and the Go file declares the name twice. -/
theorem not_packageNames_nodup :
    let source := Utf8.encode
      "import GoType\ndef f():\n    print(1)\ndef f():\n    print(2)\nf()\n"
    ∃ program text, (parsed source).outcome = .ok program ∧ (compile source).outcome = .ok text ∧
      packageNames text = ["f", "f", "main"] ∧
        ¬ (functionNames program.functions ++ ["main"]).Nodup := by
  intro source
  let word (kind : Kind) (lexeme : String) (line : Nat) : Token := ⟨kind, lexeme, line⟩
  let name (lexeme : String) (line : Nat) : Token := word .identifier lexeme line
  let header (line : Nat) : List Token :=
    [word .defWord "def" line, name "f" line, word .leftParen "(" line,
      word .rightParen ")" line, word .colon ":" line, .newline line]
  let print (lexeme : String) (line : Nat) : List Token :=
    [.indent line, word .print "print" line, word .leftParen "(" line,
      word .intLiteral lexeme line, word .rightParen ")" line, .newline line]
  let tokens : List Token :=
    [word .importWord "import" 1, name "GoType" 1, .newline 1] ++ header 2 ++ print "1" 3 ++
      header 4 ++ print "2" 5 ++
      [name "f" 6, word .leftParen "(" 6, word .rightParen ")" 6, .newline 6]
  let definition (lexeme : String) (line : Nat) : Definition :=
    ⟨word .defWord "def" line, name "f" line, [], none,
      ⟨line, [.call (word .print "print" (line + 1))
        [.terminal (word .intLiteral lexeme (line + 1))]]⟩⟩
  let program : Program :=
    ⟨⟨name "GoType" 1, none, 1⟩, [.hoisted 0 2, .hoisted 1 4, .call (name "f" 6) []],
      [definition "1" 2, definition "2" 4]⟩
  have scanned : Token.scan source = .ok tokens := by
    dsimp only [source, tokens, header, print, name, word]
    cbv
  obtain ⟨layout, laid⟩ : ∃ layout, Layout.ofTokens tokens = .ok layout := ⟨_, rfl⟩
  have isProgram : (Program.parse layout.tokens).outcome = .ok program := by
    cases laid
    dsimp only [tokens, program, definition, header, print, name, word]
    cbv
  have accepted : (program.analyze [] []).outcome = .ok () := rfl
  have isParsed := parsed_of_phases scanned laid isProgram
  obtain ⟨-, compiled⟩ | ⟨_, _, rejected, -⟩ := compile_run isParsed
  · exact ⟨program, _, isParsed, compiled, packageNames_compile isParsed compiled, by decide⟩
  · rw [accepted] at rejected
    cases rejected

end Offside
