import Offside.Syntax.Tree

/-!
# The grammar as a relation

Which token lists stand for which syntax trees, said without a reader. Every
relation is between a stretch of tokens and what it stands for, so a derivation
accounts for each token exactly once and in order: the stretches of the parts,
put one after another, are the stretch of the whole.

Line breaks may stand around statements and before the continuation of a chain.
A simple statement is followed by a line break or by the end of its list, which
is the end of its block or of the input. A statement that ends with a block has
its end marked already, and anything may follow it.

Definitions leave their place for the list of functions. The relation for
everything that nests therefore carries the number of functions defined before
its first token and the functions defined by its own tokens, in the order in
which their bodies end.
-/

namespace Offside.Grammar

/-- Any number of line breaks, and nothing else. -/
def Breaks (tokens : List Token) : Prop :=
  ∀ token ∈ tokens, token.kind = .newline

/-- A value that is written out. -/
def Literal (token : Token) : Prop :=
  token.kind ∈ [Kind.boolLiteral, .intLiteral, .stringLiteral, .nullLiteral]

/-- A name or a literal. -/
def Operand (token : Token) : Prop :=
  token.kind = .identifier ∨ Literal token

/-- A bound of a counting loop. -/
def Bound (token : Token) : Prop :=
  token.kind = .intLiteral ∨ token.kind = .identifier

/-- What may be called: a name, or the one builtin that is a statement. -/
def Callee (token : Token) : Prop :=
  token.kind = .identifier ∨ token.kind = .print

/-- Joins the operands of an expression. -/
def Operator (token : Token) : Prop :=
  token.kind ∈ [Kind.plus, .minus, .star, .slash, .percent]

/-- Joins the expressions of a condition. -/
def Comparator (token : Token) : Prop :=
  token.kind ∈ [Kind.equal, .notEqual, .greater, .greaterEqual, .less, .lessEqual]

/-- One operand, or two with an operator between them. -/
inductive ExpressionOf : List Token → Expression → Prop where
  | operand (left : Token) (isOperand : Operand left) :
      ExpressionOf [left] ⟨left, none⟩
  | operation (left operator right : Token) (leftOperand : Operand left)
      (isOperator : Operator operator) (rightOperand : Operand right) :
      ExpressionOf [left, operator, right] ⟨left, some (operator, right)⟩

/-- One expression, or two with a comparator between them. -/
inductive ComparisonOf : List Token → Comparison → Prop where
  | expression (tokens : List Token) (left : Expression)
      (leftSide : ExpressionOf tokens left) :
      ComparisonOf tokens ⟨left, none⟩
  | compared (leftTokens rightTokens : List Token) (comparator : Token)
      (left right : Expression) (leftSide : ExpressionOf leftTokens left)
      (isComparator : Comparator comparator) (rightSide : ExpressionOf rightTokens right) :
      ComparisonOf (leftTokens ++ comparator :: rightTokens)
        ⟨left, some (comparator, right)⟩

/-- The stretches of a list put together, with one comma between neighbours and
    none at either end. -/
inductive Listed : List (List Token) → List Token → Prop where
  | none : Listed [] []
  | one (item : List Token) : Listed [item] item
  | more (item next : List Token) (items : List (List Token)) (comma : Token)
      (tokens : List Token) (isComma : comma.kind = .comma)
      (later : Listed (next :: items) tokens) :
      Listed (item :: next :: items) (item ++ comma :: tokens)

/-- An argument of a call: an operand, or a call with arguments of its own. -/
inductive ArgumentOf : List Token → Value → Prop where
  | operand (token : Token) (isOperand : Operand token) :
      ArgumentOf [token] (.terminal token)
  | call (callee left right : Token) (parts : List (List Token × Value))
      (inner : List Token) (isCallee : Callee callee) (opens : left.kind = .leftParen)
      (closes : right.kind = .rightParen) (listed : Listed (parts.map Prod.fst) inner)
      (derived : ∀ part ∈ parts, ArgumentOf part.1 part.2) :
      ArgumentOf (callee :: left :: (inner ++ [right]))
        (.call callee (parts.map Prod.snd))

/-- The initial value of a declaration: a call or a literal, and no name. -/
inductive InitialOf : List Token → Value → Prop where
  | call (tokens : List Token) (callee : Token) (arguments : List Value)
      (derived : ArgumentOf tokens (.call callee arguments)) :
      InitialOf tokens (.call callee arguments)
  | literal (token : Token) (isLiteral : Literal token) :
      InitialOf [token] (.terminal token)

/-- The statements that stand on one line. -/
inductive SimpleOf : List Token → Statement → Prop where
  | declaration (name colon type assign : Token) (tokens : List Token) (value : Value)
      (isName : name.kind = .identifier) (isColon : colon.kind = .colon)
      (isType : type.kind = .identifier) (isAssign : assign.kind = .assign)
      (initial : InitialOf tokens value) :
      SimpleOf (name :: colon :: type :: assign :: tokens) (.declaration name type value)
  | manipulation (target assign : Token) (tokens : List Token) (value : Expression)
      (isTarget : target.kind = .identifier) (isAssign : assign.kind = .assign)
      (assigned : ExpressionOf tokens value) :
      SimpleOf (target :: assign :: tokens) (.manipulation target value)
  | call (tokens : List Token) (callee : Token) (arguments : List Value)
      (derived : ArgumentOf tokens (.call callee arguments)) :
      SimpleOf tokens (.call callee arguments)
  | returnValue (keyword value : Token) (isReturn : keyword.kind = .returnWord)
      (isOperand : Operand value) :
      SimpleOf [keyword, value] (.returnValue keyword value)

/-- A parameter with its type. -/
inductive ParameterOf : List Token → Parameter → Prop where
  | typed (name colon type : Token) (isName : name.kind = .identifier)
      (isColon : colon.kind = .colon) (isType : type.kind = .identifier) :
      ParameterOf [name, colon, type] ⟨name, type⟩

/-- The parameters of a definition, without the parentheses around them. -/
def ParametersOf (tokens : List Token) (parameters : List Parameter) : Prop :=
  ∃ parts : List (List Token × Parameter), Listed (parts.map Prod.fst) tokens ∧
    (∀ part ∈ parts, ParameterOf part.1 part.2) ∧ parameters = parts.map Prod.snd

/-- The result type of a definition. `None` stands for no result, like nothing
    at all. -/
inductive ResultOf : List Token → Option Token → Prop where
  | missing : ResultOf [] none
  | null (arrow type : Token) (isArrow : arrow.kind = .arrow)
      (isNull : type.kind = .nullLiteral) :
      ResultOf [arrow, type] none
  | named (arrow type : Token) (isArrow : arrow.kind = .arrow)
      (isName : type.kind = .identifier) :
      ResultOf [arrow, type] (some type)

/-- The rest of a statement list after a simple statement: nothing, or a line
    break first. -/
def LineEnds (rest : List Token) : Prop :=
  ∀ token ∈ rest.head?, token.kind = .newline

/-- What the productions that nest stand for. -/
inductive Phrase where
  | block (block : Block Statement)
  /-- What follows the first branch of a chain. -/
  | continuation (branches : List (Branch Statement)) (otherwise : Option (Block Statement))
  /-- A statement that ends with a block. -/
  | compound (statement : Statement)
  | statements (statements : List Statement)

/-- `Derives first tokens phrase functions`: the tokens stand for the phrase and
    define the functions, where `first` functions are defined before them. -/
inductive Derives : Nat → List Token → Phrase → List Definition → Prop where
  | block (first : Nat) (colon newline close : Token) (tokens : List Token)
      (statements : List Statement) (functions : List Definition)
      (isColon : colon.kind = .colon) (isBreak : newline.kind = .newline)
      (isClose : close.kind = .closeBlock) (nonempty : statements ≠ [])
      (derived : Derives first tokens (.statements statements) functions) :
      Derives first (colon :: newline :: (tokens ++ [close]))
        (.block ⟨colon.line, statements⟩) functions
  | chainEnd (first : Nat) : Derives first [] (.continuation [] none) []
  | otherwise (first : Nat) (gap : List Token) (keyword : Token) (tokens : List Token)
      (body : Block Statement) (functions : List Definition) (breaks : Breaks gap)
      (isElse : keyword.kind = .elseWord) (derived : Derives first tokens (.block body) functions) :
      Derives first (gap ++ keyword :: tokens) (.continuation [] (some body)) functions
  | branch (first : Nat) (gap : List Token) (keyword : Token)
      (condition tokens later : List Token) (comparison : Comparison) (body : Block Statement)
      (branches : List (Branch Statement)) (otherwise : Option (Block Statement))
      (functions laterFunctions : List Definition) (breaks : Breaks gap)
      (isElif : keyword.kind = .elifWord) (compared : ComparisonOf condition comparison)
      (derived : Derives first tokens (.block body) functions)
      (continued : Derives (first + functions.length) later
        (.continuation branches otherwise) laterFunctions) :
      Derives first (gap ++ keyword :: (condition ++ (tokens ++ later)))
        (.continuation (⟨keyword, comparison, body⟩ :: branches) otherwise)
        (functions ++ laterFunctions)
  | forRange (first : Nat) (keyword counter inside range left start comma stop right : Token)
      (tokens : List Token) (body : Block Statement) (functions : List Definition)
      (isFor : keyword.kind = .forWord) (isCounter : counter.kind = .identifier)
      (isIn : inside.kind = .inWord) (isRange : range.kind = .range)
      (opens : left.kind = .leftParen) (startBound : Bound start)
      (isComma : comma.kind = .comma) (stopBound : Bound stop)
      (closes : right.kind = .rightParen) (derived : Derives first tokens (.block body) functions) :
      Derives first
        (keyword :: counter :: inside :: range :: left :: start :: comma :: stop :: right :: tokens)
        (.compound (.forRange keyword counter start stop body)) functions
  | whileLoop (first : Nat) (keyword : Token) (condition tokens : List Token)
      (comparison : Comparison) (body : Block Statement) (functions : List Definition)
      (isWhile : keyword.kind = .whileWord) (compared : ComparisonOf condition comparison)
      (derived : Derives first tokens (.block body) functions) :
      Derives first (keyword :: (condition ++ tokens))
        (.compound (.whileLoop keyword comparison body)) functions
  | ifChain (first : Nat) (keyword : Token) (condition tokens later : List Token)
      (comparison : Comparison) (body : Block Statement)
      (branches : List (Branch Statement)) (otherwise : Option (Block Statement))
      (functions laterFunctions : List Definition)
      (isIf : keyword.kind = .ifWord) (compared : ComparisonOf condition comparison)
      (derived : Derives first tokens (.block body) functions)
      (continued : Derives (first + functions.length) later
        (.continuation branches otherwise) laterFunctions) :
      Derives first (keyword :: (condition ++ (tokens ++ later)))
        (.compound (.ifChain (⟨keyword, comparison, body⟩ :: branches) otherwise))
        (functions ++ laterFunctions)
  /-- The definition is appended when its body has ended, after the definitions
      inside the body, and its placeholder has its index in the whole list. -/
  | definition (first : Nat) (keyword name left right : Token)
      (inner resultTokens tokens : List Token) (parameters : List Parameter)
      (returns : Option Token) (body : Block Statement) (functions : List Definition)
      (isDef : keyword.kind = .defWord) (isName : name.kind = .identifier)
      (opens : left.kind = .leftParen) (listed : ParametersOf inner parameters)
      (closes : right.kind = .rightParen) (result : ResultOf resultTokens returns)
      (derived : Derives first tokens (.block body) functions) :
      Derives first
        (keyword :: name :: left :: (inner ++ right :: (resultTokens ++ tokens)))
        (.compound (.hoisted (first + functions.length) keyword.line))
        (functions ++ [⟨keyword, name, parameters, returns, body⟩])
  | listEnd (first : Nat) (gap : List Token) (breaks : Breaks gap) :
      Derives first gap (.statements []) []
  | simple (first : Nat) (gap tokens later : List Token) (statement : Statement)
      (statements : List Statement) (functions : List Definition) (breaks : Breaks gap)
      (derived : SimpleOf tokens statement) (ends : LineEnds later)
      (continued : Derives first later (.statements statements) functions) :
      Derives first (gap ++ (tokens ++ later)) (.statements (statement :: statements)) functions
  | compound (first : Nat) (gap tokens later : List Token) (statement : Statement)
      (statements : List Statement) (functions laterFunctions : List Definition)
      (breaks : Breaks gap) (derived : Derives first tokens (.compound statement) functions)
      (continued : Derives (first + functions.length) later
        (.statements statements) laterFunctions) :
      Derives first (gap ++ (tokens ++ later)) (.statements (statement :: statements))
        (functions ++ laterFunctions)

/-- The clause that imports the runtime, as a whole or one item of it. -/
inductive ImportOf : List Token → ImportClause → Prop where
  | whole (keyword module : Token) (isImport : keyword.kind = .importWord)
      (isName : module.kind = .identifier) (isRuntime : module.lexeme = "GoType") :
      ImportOf [keyword, module] ⟨module, none, keyword.line⟩
  | part (keyword module importing item : Token) (isFrom : keyword.kind = .fromWord)
      (isName : module.kind = .identifier) (isRuntime : module.lexeme = "GoType")
      (isImport : importing.kind = .importWord)
      (isItem : item.kind = .star ∨ item.kind = .identifier) :
      ImportOf [keyword, module, importing, item] ⟨module, some item, keyword.line⟩

/-- The tokens stand for the program: the import clause on a line of its own,
    then the statements of the body. Nothing is left over, so no block end stands
    outside a block. -/
inductive ProgramOf : List Token → Program → Prop where
  | program (gap clauseTokens tokens : List Token) (clause : ImportClause)
      (body : List Statement) (functions : List Definition) (breaks : Breaks gap)
      (imported : ImportOf clauseTokens clause) (ends : LineEnds tokens)
      (derived : Derives 0 tokens (.statements body) functions) :
      ProgramOf (gap ++ (clauseTokens ++ tokens)) ⟨clause, body, functions⟩

/-- The kinds of the tokens that can start a statement. -/
def StartsStatement (token : Token) : Prop :=
  token.kind ∈ [Kind.identifier, .print, .returnWord, .forWord, .whileWord, .ifWord, .defWord]

/-- A call starts with its callee and an opening parenthesis, which tells it from other statements
    that start with a name. -/
theorem call_front {tokens : List Token} {callee : Token} {arguments : List Value}
    (derived : ArgumentOf tokens (.call callee arguments)) :
    Callee callee ∧ ∃ left rest, tokens = callee :: left :: rest ∧ left.kind = .leftParen := by
  cases derived with
  | call callee left right parts inner isCallee opens closes listed derived =>
      exact ⟨isCallee, left, inner ++ [right], rfl, opens⟩

/-- The words that a statement on one line can start with are a name, `print` and `return`. -/
theorem simple_word {tokens : List Token} {statement : Statement}
    (derived : SimpleOf tokens statement) :
    ∃ token rest, tokens = token :: rest ∧ token.kind ∈ [Kind.identifier, .print, .returnWord] := by
  cases derived with
  | declaration name colon type assign tokens value isName =>
      exact ⟨name, _, rfl, by simp [isName]⟩
  | manipulation target assign tokens value isTarget =>
      exact ⟨target, _, rfl, by simp [isTarget]⟩
  | call tokens callee arguments derived =>
      obtain ⟨isCallee, left, rest, rfl, _⟩ := call_front derived
      refine ⟨callee, _, rfl, ?_⟩
      rcases isCallee with isName | isPrint
      · simp [isName]
      · simp [isPrint]
  | returnValue keyword value isReturn =>
      exact ⟨keyword, _, rfl, by simp [isReturn]⟩

/-- The words that a statement with a block at its end can start with. -/
theorem compound_word {first : Nat} {tokens : List Token} {statement : Statement}
    {functions : List Definition}
    (derived : Derives first tokens (.compound statement) functions) :
    ∃ token rest, tokens = token :: rest ∧
      token.kind ∈ [Kind.forWord, .whileWord, .ifWord, .defWord] := by
  cases derived with
  | forRange => exact ⟨_, _, rfl, by simp [*]⟩
  | whileLoop => exact ⟨_, _, rfl, by simp [*]⟩
  | ifChain => exact ⟨_, _, rfl, by simp [*]⟩
  | definition => exact ⟨_, _, rfl, by simp [*]⟩

/-- A statement on one line starts with one of the words that start a statement, as all of its forms
    do. -/
theorem simple_front {tokens : List Token} {statement : Statement}
    (derived : SimpleOf tokens statement) :
    ∃ token rest, tokens = token :: rest ∧ StartsStatement token := by
  obtain ⟨token, rest, same, isWord⟩ := simple_word derived
  exact ⟨token, rest, same, List.mem_append_left _ isWord⟩

/-- A statement with a block at its end starts with one of the words that start a statement, as all
    of its forms do. -/
theorem compound_front {first : Nat} {tokens : List Token} {statement : Statement}
    {functions : List Definition}
    (derived : Derives first tokens (.compound statement) functions) :
    ∃ token rest, tokens = token :: rest ∧ StartsStatement token := by
  obtain ⟨token, rest, same, isWord⟩ := compound_word derived
  exact ⟨token, rest, same, List.mem_append_right [Kind.identifier, .print, .returnWord] isWord⟩

/-- A list of statements has line breaks first, and then nothing or the start of
    a statement. In particular it starts with no block end, and no branch of an
    enclosing chain stands in it. -/
theorem statements_front {first : Nat} {tokens : List Token} {statements : List Statement}
    {functions : List Definition}
    (derived : Derives first tokens (.statements statements) functions) :
    ∃ gap rest, tokens = gap ++ rest ∧ Breaks gap ∧
      ∀ token ∈ rest.head?, StartsStatement token := by
  cases derived with
  | listEnd first gap breaks => exact ⟨tokens, [], by simp, breaks, by simp⟩
  | simple first gap tokens later statement statements functions breaks derived =>
      obtain ⟨token, rest, rfl, starts⟩ := simple_front derived
      exact ⟨gap, _, rfl, breaks, by simpa using starts⟩
  | compound first gap tokens later statement statements functions laterFunctions breaks derived =>
      obtain ⟨token, rest, rfl, starts⟩ := compound_front derived
      exact ⟨gap, _, rfl, breaks, by simpa using starts⟩

end Offside.Grammar
