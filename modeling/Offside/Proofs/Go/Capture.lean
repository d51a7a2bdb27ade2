import Offside.Proofs.Source.Compilation
import Offside.Proofs.Typing.Exactness

/-!
# What callees denote in Go

Static analysis looks variables and functions up apart from one another, and it knows `print`
by the kind of its token. A Go file has one scope for both: a name stands for the nearest
variable of the function around it, or else for a function of the package, or else for what
the language declares itself, and `print` is spelled `println`.

So the callee of a call keeps its meaning exactly where no variable of its spelling is
visible. Static analysis does not ask for this, and it accepts calls whose callee is captured
by a variable; a call of `print` is captured by a function called `println` as well.
-/

namespace Offside

/-! ## Calls -/

/-- The value is a call of the callee, or has one among its arguments at any depth. -/
inductive Value.Calls : Value → Token → Prop where
  | here (callee : Token) (arguments : List Value) : Calls (.call callee arguments) callee
  | inside (outer : Token) {arguments : List Value} {argument : Value} {callee : Token}
      (isArgument : argument ∈ arguments) (calls : Calls argument callee) :
      Calls (.call outer arguments) callee

/-- The statement calls the callee, what stands inside its blocks apart. -/
def Statement.Calls (statement : Statement) (callee : Token) : Prop :=
  ∃ value ∈ statement.values, value.Calls callee

/-- What a source is checked with: nothing is given from outside. -/
def Program.setting (program : Program) : Setting :=
  ⟨[], [], program.functions⟩

/-- A value with a type calls `print` and visible functions only, at any depth. The induction goes
    down the arguments to the call. -/
theorem Place.HasType.callee {setting : Setting} {place : Place} {value : Value}
    {type : StaticType} (typed : place.HasType setting value type) {callee : Token}
    (calls : value.Calls callee) :
    callee.kind = .print ∨ callee.kind = .identifier ∧
      ∃ signature, place.signature? setting callee.lexeme = some signature := by
  induction calls generalizing type with
  | here callee arguments =>
      cases typed with
      | print _ argument actual isPrint => exact .inl isPrint
      | call _ signature arguments isName found => exact .inr ⟨isName, signature, found⟩
  | inside outer isArgument calls ih =>
      cases typed with
      | print _ argument actual isPrint argumentTyped =>
          obtain rfl := List.mem_singleton.mp isArgument
          exact ih argumentTyped
      | call _ signature arguments isName found argumentsTyped =>
          obtain ⟨entry, isEntry, rfl⟩ := List.mem_map.mp isArgument
          exact ih (argumentsTyped entry isEntry)

/-- A statement that obeys the rules at its place calls `print` and visible functions only, for all
    of its values have types there. -/
theorem Place.Obeys.callee {setting : Setting} {place : Place} {statement : Statement}
    (obeys : place.Obeys setting statement) {callee : Token} (calls : statement.Calls callee) :
    callee.kind = .print ∨ callee.kind = .identifier ∧
      ∃ signature, place.signature? setting callee.lexeme = some signature := by
  obtain ⟨value, isValue, calls⟩ := calls
  cases statement with
  | declaration name type initial =>
      obtain rfl := List.mem_singleton.mp isValue
      obtain ⟨-, actual, typed, -⟩ := obeys
      exact typed.callee calls
  | call outer arguments =>
      obtain rfl := List.mem_singleton.mp isValue
      obtain ⟨result, typed⟩ := obeys
      exact typed.callee calls
  | _ => cases isValue

/-! ## The definition behind a name -/

/-- The definitions whose placeholders are among the statements, in order. -/
def placedIn (definitions : List Definition) (statements : List Statement) : List Definition :=
  statements.filterMap fun statement =>
    match statement with
    | .hoisted index _ => definitions[index]?
    | _ => none

/-- The signatures defined by some statements are those of the definitions whose placeholders are
    among them. -/
theorem definedIn_eq (definitions : List Definition) (statements : List Statement) :
    definedIn definitions statements =
      (placedIn definitions statements).map Definition.signature := by
  rw [definedIn, placedIn, List.map_filterMap]
  congr 1
  funext statement
  cases statement <;> rfl

/-- What a placeholder stands for is one of the definitions that it is looked up in. -/
theorem mem_of_mem_placedIn {definitions : List Definition} {statements : List Statement}
    {definition : Definition} (placed : definition ∈ placedIn definitions statements) :
    definition ∈ definitions := by
  obtain ⟨statement, -, found⟩ := List.mem_filterMap.mp placed
  cases statement with
  | hoisted index line => exact List.mem_of_getElem? found
  | _ => cases found

namespace Place

/-- The definitions that are visible at a place, nearest first. A body sees its own. -/
def definitions (functions : List Definition) : Place → List Definition
  | top earlier => (placedIn functions earlier).reverse
  | inBlock outer _ earlier => (placedIn functions earlier).reverse ++ definitions functions outer
  | inBody outer definition earlier =>
      (placedIn functions earlier).reverse ++ definition :: definitions functions outer

/-- The definition that static analysis takes a name for. -/
def definition? (functions : List Definition) (place : Place) (name : String) :
    Option Definition :=
  (place.definitions functions).find? fun definition => definition.name.lexeme == name

/-- The signatures visible at a place belong to the definitions visible there, nearest first. The
    induction is on the way down to the place. -/
theorem signatures_eq (program : Program) (place : Place) :
    place.signatures program.setting =
      (place.definitions program.functions).map Definition.signature := by
  induction place with
  | top earlier => simp [signatures, definitions, Program.setting, definedIn_eq]
  | inBlock outer counter earlier ih =>
      rw [signatures, definitions, List.map_append, ← ih, List.map_reverse, ← definedIn_eq]
      rfl
  | inBody outer definition earlier ih =>
      rw [signatures, definitions, List.map_append, List.map_cons, ← ih, List.map_reverse,
        ← definedIn_eq]
      rfl

/-- The signature behind a name is that of the definition behind it. -/
theorem signature?_eq (program : Program) (place : Place) (name : String) :
    place.signature? program.setting name =
      (place.definition? program.functions name).map Definition.signature := by
  rw [signature?, signatures_eq, definition?, List.find?_map]
  rfl

end Place

/-- Definitions that are visible inside a statement are those visible at it, and functions. -/
theorem Contains.definitions {functions : List Definition} {outer inner : Place × Statement}
    (contained : Contains functions outer inner)
    (known : ∀ definition ∈ outer.1.definitions functions, definition ∈ functions) :
    ∀ definition ∈ inner.1.definitions functions, definition ∈ functions := by
  have placed (earlier : List Statement) :
      ∀ definition ∈ (placedIn functions earlier).reverse, definition ∈ functions :=
    fun definition member => mem_of_mem_placedIn (List.mem_reverse.mp member)
  cases contained with
  | block place statement counter body earlier =>
      exact List.forall_mem_append.mpr ⟨placed earlier, known⟩
  | body place index line definition earlier later inner found =>
      exact List.forall_mem_append.mpr
        ⟨placed earlier, List.forall_mem_cons.mpr ⟨List.mem_of_getElem? found, known⟩⟩

/-- The definition behind a name is a function of the program that has the name. -/
theorem Program.Occurs.definition {program : Program} {place : Place} {statement : Statement}
    (occurs : program.Occurs place statement) {name : String} {definition : Definition}
    (found : place.definition? program.functions name = some definition) :
    definition ∈ program.functions ∧ definition.name.lexeme = name := by
  obtain ⟨earlier, first, later, -, reached⟩ := occurs
  have known (inner : Place × Statement)
      (reached : Relation.ReflTransGen (Contains program.functions) (.top earlier, first) inner) :
      ∀ definition ∈ inner.1.definitions program.functions, definition ∈ program.functions := by
    induction reached with
    | refl => exact fun definition member => mem_of_mem_placedIn (List.mem_reverse.mp member)
    | tail _ contained ih => exact contained.definitions ih
  constructor
  · exact known (place, statement) reached definition (List.mem_of_find?_eq_some found)
  · simpa using List.find?_some found

/-! ## The scope of Go -/

namespace Go

/-- What a name can stand for in a Go file. -/
inductive Entity where
  | localVariable (binding : Binding)
  | packageFunction (definition : Definition)
  /-- What the language declares itself. -/
  | predeclared

/-- The function that the language declares for output. -/
def outputName : String := "println"

/-- What a name stands for at a place of a program when the program is emitted: the nearest
    variable in the function around the place; without one, a function of the package,
    wherever it was defined; without one, what the language declares. A name that two
    functions have stands for both. -/
inductive Denotes (program : Program) (place : Place) (name : String) : Entity → Prop where
  | localVariable (binding : Binding) (found : place.binding? program.setting name = some binding) :
      Denotes program place name (.localVariable binding)
  | packageFunction (definition : Definition) (unbound : place.binding? program.setting name = none)
      (isFunction : definition ∈ program.functions) (named : definition.name.lexeme = name) :
      Denotes program place name (.packageFunction definition)
  | predeclared (unbound : place.binding? program.setting name = none)
      (undefined : ∀ definition ∈ program.functions, definition.name.lexeme ≠ name)
      (isOutput : name = outputName) : Denotes program place name .predeclared

end Go

/-- No variable of this name is visible at the place. -/
def Place.Free (program : Program) (place : Place) (name : String) : Prop :=
  ∀ binding ∈ place.bindings program.setting, binding.name ≠ name

/-- No variable of a name is visible exactly when looking the name up among the variables finds
    nothing. -/
theorem Place.free_iff {program : Program} {place : Place} {name : String} :
    place.Free program name ↔ place.binding? program.setting name = none := by
  simp [Free, binding?]

/-- A name stands for a function that has it exactly when no variable of this name is visible.
    Functions are found wherever they were defined. -/
theorem Go.denotes_function_iff {program : Program} {place : Place} {name : String}
    {definition : Definition} (isFunction : definition ∈ program.functions)
    (named : definition.name.lexeme = name) :
    Denotes program place name (.packageFunction definition) ↔ place.Free program name := by
  rw [Place.free_iff]
  constructor
  · rintro ⟨⟩
    assumption
  · intro unbound
    exact .packageFunction definition unbound isFunction named

/-- The name of the output function keeps the meaning that the language gives it exactly when no
    visible variable and no function of the program has it. -/
theorem Go.denotes_predeclared_iff {program : Program} {place : Place} :
    Denotes program place outputName .predeclared ↔ place.Free program outputName ∧
      ∀ definition ∈ program.functions, definition.name.lexeme ≠ outputName := by
  rw [Place.free_iff]
  constructor
  · rintro ⟨⟩
    constructor <;> assumption
  · rintro ⟨unbound, undefined⟩
    exact .predeclared unbound undefined rfl

/-- A name that stands for a variable stands for nothing else, since variables are looked up before
    functions and before what the language declares. -/
theorem Go.Denotes.eq_variable {program : Program} {place : Place} {name : String}
    {binding : Binding} (found : place.binding? program.setting name = some binding)
    {entity : Entity} (denotes : Denotes program place name entity) :
    entity = .localVariable binding := by
  cases denotes with
  | localVariable other isOther => rw [Option.some.inj (found.symm.trans isOther)]
  | packageFunction _ unbound =>
      rw [found] at unbound
      cases unbound
  | predeclared unbound =>
      rw [found] at unbound
      cases unbound

/-! ## Sources -/

/-- Every statement of a source that compiles obeys the rules at its place. -/
theorem compiled_obeys {source : List UInt8} {program : Program} {text : String}
    (isParsed : (parsed source).outcome = .ok program)
    (compiled : (compile source).outcome = .ok text) {place : Place} {statement : Statement}
    (occurs : program.Occurs place statement) : place.Obeys program.setting statement := by
  obtain ⟨tokens, layout, -, -, derived⟩ := (parsed_ok_iff source program).mp isParsed
  obtain ⟨bodyParsed, bodies⟩ := Grammar.program_parsed derived
  have followed : ∀ statement ∈ program.body, Followed program.setting
      (Check.definition program.functions program.definitionBound) statement := by
    intro statement member
    apply parsed_followed _ (bodyParsed statement member)
    intro index inside line
    exact definition_followed bodies _ index (by unfold Program.definitionBound; omega) inside line
  have start : Environment.seeded [] [] = (Place.top []).environment program.setting := rfl
  rcases compile_run isParsed with ⟨accepted, -⟩ | ⟨_, _, -, failed⟩
  · obtain ⟨after, run⟩ := (Traced.outcome_ok_iff _ _).mp accepted
    obtain ⟨last, between, walked, -⟩ := Traced.bind_ok_iff.mp run
    rw [start] at walked
    have decided := statements_decides followed (.top []) ["analyze"] #[] last
    exact occurs_iff.mpr (decided.mp ⟨between, walked⟩).1 place statement occurs
  · rw [failed] at compiled
    cases compiled

/-- What callees denote in the Go file of a source. Where a name is called, static analysis
    takes it for a function of the program, and in Go it stands for this function exactly if no
    variable of the name is visible there. Where `print` is called, its spelling in Go stands
    for what the language declares exactly if no variable of that spelling is visible there and
    no function of the program has it as its name. -/
theorem callee_denotes_iff {source : List UInt8} {program : Program} {text : String}
    (isParsed : (parsed source).outcome = .ok program)
    (compiled : (compile source).outcome = .ok text) {place : Place} {statement : Statement}
    (occurs : program.Occurs place statement) {callee : Token} (calls : statement.Calls callee) :
    (callee.kind = .identifier ∧ ∃ definition ∈ program.functions,
      place.definition? program.functions callee.lexeme = some definition ∧
      place.signature? program.setting callee.lexeme = some definition.signature ∧
      (Go.Denotes program place (Go.spelling callee) (.packageFunction definition) ↔
        place.Free program callee.lexeme)) ∨
    (callee.kind = .print ∧
      (Go.Denotes program place (Go.spelling callee) .predeclared ↔
        place.Free program "println" ∧
          ∀ definition ∈ program.functions, definition.name.lexeme ≠ "println")) := by
  rcases (compiled_obeys isParsed compiled occurs).callee calls with isPrint | ⟨isName, _, found⟩
  · have spelled : Go.spelling callee = Go.outputName := by
      simp [Go.spelling, Go.spelling?, isPrint, Go.outputName]
    rw [spelled]
    exact .inr ⟨isPrint, Go.denotes_predeclared_iff⟩
  · have spelled : Go.spelling callee = callee.lexeme := by
      simp [Go.spelling, Go.spelling?, isName]
    rw [Place.signature?_eq] at found
    obtain ⟨definition, isBehind, -⟩ := Option.map_eq_some_iff.mp found
    obtain ⟨isFunction, named⟩ := occurs.definition isBehind
    rw [spelled, Place.signature?_eq, isBehind]
    exact .inl ⟨isName, definition, isFunction, rfl, rfl,
      Go.denotes_function_iff isFunction named⟩

/-- A function that is called in an argument of `print`, next to a variable. -/
theorem callee_denotes_iff_argument :
    let source := Utf8.encode
      "import GoType\ndef f(a: int) -> int:\n    return a\nx: int = f(1)\nprint(f(x))\n"
    let name (lexeme : String) (line : Nat) : Token := ⟨.identifier, lexeme, line⟩
    ∃ program text place statement definition, (parsed source).outcome = .ok program ∧
      (compile source).outcome = .ok text ∧ program.Occurs place statement ∧
      statement.Calls (name "f" 5) ∧ program.functions = [definition] ∧
      place.bindings program.setting = [⟨"x", "int"⟩] ∧
      Go.Denotes program place "f" (.packageFunction definition) ∧
      Go.Denotes program place "println" .predeclared := by
  intro source name
  let word (kind : Kind) (lexeme : String) (line : Nat) : Token := ⟨kind, lexeme, line⟩
  let tokens : List Token :=
    [word .importWord "import" 1, name "GoType" 1, .newline 1,
      word .defWord "def" 2, name "f" 2, word .leftParen "(" 2, name "a" 2, word .colon ":" 2,
      name "int" 2, word .rightParen ")" 2, word .arrow "->" 2, name "int" 2, word .colon ":" 2,
      .newline 2,
      .indent 3, word .returnWord "return" 3, name "a" 3, .newline 3,
      name "x" 4, word .colon ":" 4, name "int" 4, word .assign "=" 4, name "f" 4,
      word .leftParen "(" 4, word .intLiteral "1" 4, word .rightParen ")" 4, .newline 4,
      word .print "print" 5, word .leftParen "(" 5, name "f" 5, word .leftParen "(" 5, name "x" 5,
      word .rightParen ")" 5, word .rightParen ")" 5, .newline 5]
  let definition : Definition :=
    ⟨word .defWord "def" 2, name "f" 2, [⟨name "a" 2, name "int" 2⟩], some (name "int" 2),
      ⟨2, [.returnValue (word .returnWord "return" 3) (name "a" 3)]⟩⟩
  let declaration : Statement :=
    .declaration (name "x" 4) (name "int" 4)
      (.call (name "f" 4) [.terminal (word .intLiteral "1" 4)])
  let inner : Value := .call (name "f" 5) [.terminal (name "x" 5)]
  let statement : Statement := .call (word .print "print" 5) [inner]
  let program : Program :=
    ⟨⟨name "GoType" 1, none, 1⟩, [.hoisted 0 2, declaration, statement], [definition]⟩
  have scanned : Token.scan source = .ok tokens := by
    dsimp only [source, tokens, name, word]
    cbv
  obtain ⟨layout, laid⟩ : ∃ layout, Layout.ofTokens tokens = .ok layout := ⟨_, rfl⟩
  have isProgram : (Program.parse layout.tokens).outcome = .ok program := by
    cases laid
    dsimp only [tokens, program, definition, declaration, statement, inner, name, word]
    cbv
  have accepted : (program.analyze [] []).outcome = .ok () := rfl
  have isParsed := parsed_of_phases scanned laid isProgram
  have occurs : program.Occurs (.top [.hoisted 0 2, declaration]) statement :=
    ⟨[.hoisted 0 2, declaration], statement, [], rfl, .refl⟩
  have called : statement.Calls (word .print "print" 5) :=
    ⟨_, List.mem_cons_self, .here _ _⟩
  have calledInside : statement.Calls (name "f" 5) :=
    ⟨_, List.mem_cons_self, .inside _ List.mem_cons_self (.here _ _)⟩
  have visible : (Place.top [.hoisted 0 2, declaration]).bindings program.setting =
      [⟨"x", "int"⟩] := rfl
  have free : ∀ other ∈ ["f", "println"],
      (Place.top [.hoisted 0 2, declaration]).Free program other := by
    unfold Place.Free
    rw [visible]
    decide
  obtain ⟨-, compiled⟩ | ⟨_, _, rejected, -⟩ := compile_run isParsed
  · obtain ⟨-, _, isFunction, -, -, denotes⟩ | ⟨isPrint, -⟩ :=
      callee_denotes_iff isParsed compiled occurs calledInside
    · obtain ⟨isName, -⟩ | ⟨-, printed⟩ := callee_denotes_iff isParsed compiled occurs called
      · cases isName
      · obtain rfl := List.mem_singleton.mp isFunction
        exact ⟨program, _, _, statement, definition, isParsed, compiled, occurs, calledInside, rfl,
          visible, denotes.mpr (free "f" (by simp)),
          printed.mpr ⟨free "println" (by simp), by simp [program, definition, name]⟩⟩
    · cases isPrint
  · rw [accepted] at rejected
    cases rejected

/-- A parameter with the name of what `print` is in Go, and a variable with the name of a
    function. Both are accepted, and both calls are captured. -/
theorem not_callee_denotes_function :
    let source := Utf8.encode
      "import GoType\ndef f(println: int):\n    print(println)\nf: any = print(0)\nf(1)\n"
    let printed : Token := ⟨.print, "print", 3⟩
    let called : Token := ⟨.identifier, "f", 5⟩
    ∃ program text place statement inner first, (parsed source).outcome = .ok program ∧
      (compile source).outcome = .ok text ∧
      program.Occurs place statement ∧ statement.Calls called ∧
      Go.Denotes program place (Go.spelling called) (.localVariable ⟨"f", "any"⟩) ∧
      (∀ definition,
        ¬ Go.Denotes program place (Go.spelling called) (.packageFunction definition)) ∧
      program.Occurs inner first ∧ first.Calls printed ∧
      Go.Denotes program inner (Go.spelling printed) (.localVariable ⟨"println", "int"⟩) ∧
      ¬ Go.Denotes program inner (Go.spelling printed) .predeclared := by
  intro source printed called
  let word (kind : Kind) (lexeme : String) (line : Nat) : Token := ⟨kind, lexeme, line⟩
  let name (lexeme : String) (line : Nat) : Token := word .identifier lexeme line
  let tokens : List Token :=
    [word .importWord "import" 1, name "GoType" 1, .newline 1,
      word .defWord "def" 2, name "f" 2, word .leftParen "(" 2, name "println" 2,
      word .colon ":" 2, name "int" 2, word .rightParen ")" 2, word .colon ":" 2, .newline 2,
      .indent 3, printed, word .leftParen "(" 3, name "println" 3, word .rightParen ")" 3,
      .newline 3,
      name "f" 4, word .colon ":" 4, name "any" 4, word .assign "=" 4, word .print "print" 4,
      word .leftParen "(" 4, word .intLiteral "0" 4, word .rightParen ")" 4, .newline 4,
      called, word .leftParen "(" 5, word .intLiteral "1" 5, word .rightParen ")" 5, .newline 5]
  let first : Statement := .call printed [.terminal (name "println" 3)]
  let definition : Definition :=
    ⟨word .defWord "def" 2, name "f" 2, [⟨name "println" 2, name "int" 2⟩], none, ⟨2, [first]⟩⟩
  let declaration : Statement :=
    .declaration (name "f" 4) (name "any" 4)
      (.call (word .print "print" 4) [.terminal (word .intLiteral "0" 4)])
  let statement : Statement := .call called [.terminal (word .intLiteral "1" 5)]
  let program : Program :=
    ⟨⟨name "GoType" 1, none, 1⟩, [.hoisted 0 2, declaration, statement], [definition]⟩
  have scanned : Token.scan source = .ok tokens := by
    dsimp only [source, tokens, called, printed, name, word]
    cbv
  obtain ⟨layout, laid⟩ : ∃ layout, Layout.ofTokens tokens = .ok layout := ⟨_, rfl⟩
  have isProgram : (Program.parse layout.tokens).outcome = .ok program := by
    cases laid
    dsimp only [tokens, program, definition, declaration, statement, first, called, printed, name,
      word]
    cbv
  have accepted : (program.analyze [] []).outcome = .ok () := rfl
  have isParsed := parsed_of_phases scanned laid isProgram
  have occurs : program.Occurs (.top [.hoisted 0 2, declaration]) statement :=
    ⟨[.hoisted 0 2, declaration], statement, [], rfl, .refl⟩
  have occursFirst : program.Occurs (.inBody (.top []) definition []) first :=
    ⟨[], .hoisted 0 2, [declaration, statement], rfl,
      .single (.body (.top []) 0 2 definition [] [] first rfl rfl)⟩
  obtain ⟨-, compiled⟩ | ⟨_, _, rejected, -⟩ := compile_run isParsed
  · have bound : (Place.top [.hoisted 0 2, declaration]).binding? program.setting
        (Go.spelling called) = some ⟨"f", "any"⟩ := rfl
    have boundInside : (Place.inBody (.top []) definition []).binding? program.setting
        (Go.spelling printed) = some ⟨"println", "int"⟩ := rfl
    refine ⟨program, _, _, statement, _, first, isParsed, compiled, occurs,
      ⟨_, List.mem_cons_self, .here _ _⟩, .localVariable _ bound, ?_, occursFirst,
      ⟨_, List.mem_cons_self, .here _ _⟩, .localVariable _ boundInside, ?_⟩
    · intro definition denotes
      exact absurd (denotes.eq_variable bound) (by simp)
    · intro denotes
      exact absurd (denotes.eq_variable boundInside) (by simp)
  · rw [accepted] at rejected
    cases rejected

end Offside
