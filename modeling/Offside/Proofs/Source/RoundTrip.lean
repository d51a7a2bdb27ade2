import Offside.Proofs.Source.Leaves
import Offside.Proofs.Source.Phases

/-!
# Reading back what was written

A well-formed program, written out and read again, is the same program up to line
numbers. Scanning and layout of the text are settled by `TextLine`; what remains
is that the laid out lines derive the tree.

The induction is on two things at once. Inside one body it follows the tree. A
placeholder leaves the body for the list of functions, and there the index goes
down: a definition only contains definitions that end before it. `bound` is the
number of functions that may be met, and the functions met in a stretch are the
next ones of the list, which is all that numbering asks for.
-/

namespace Offside

open Grammar TextLine

/-! ## Numbers and functions -/

/-- The numbers count up from `first`. -/
def Consecutive (first : Nat) (numbers : List Nat) : Prop :=
  numbers = List.range' first numbers.length

/-- Numbers in two parts are consecutive if those of the first part are and those of the second part
    go on where the first one stops. -/
theorem consecutive_append {first : Nat} {leading following : List Nat} :
    Consecutive first (leading ++ following) ↔
      Consecutive first leading ∧ Consecutive (first + leading.length) following := by
  unfold Consecutive
  rw [List.length_append, ← List.range'_append_1]
  constructor
  · intro whole
    exact List.append_inj whole (by simp)
  · rintro ⟨isLeading, isFollowing⟩
    rw [← isLeading, ← isFollowing]

/-- The definitions are `count` functions of the list from `first` on, up to line
    numbers. -/
def Recovered (functions : List Definition) (first count : Nat)
    (defined : List Definition) : Prop :=
  defined.length = count ∧
    defined.map (Definition.onLine 0) =
      ((functions.drop first).take count).map (Definition.onLine 0)

/-- Where no function is defined, none has to be found again. -/
theorem Recovered.none (functions : List Definition) (first : Nat) :
    Recovered functions first 0 [] :=
  ⟨rfl, by simp⟩

/-- Functions found again in two stretches, the second right after the first, are found again in
    both stretches taken together. -/
theorem Recovered.append {functions : List Definition} {first count more : Nat}
    {defined others : List Definition} (leading : Recovered functions first count defined)
    (following : Recovered functions (first + count) more others) :
    Recovered functions first (count + more) (defined ++ others) := by
  obtain ⟨length, same⟩ := leading
  obtain ⟨otherLength, otherSame⟩ := following
  refine ⟨by rw [List.length_append, length, otherLength], ?_⟩
  rw [List.map_append, same, otherSame, List.take_add, List.map_append, List.drop_drop]

/-! ## Laid out lines of a header, and of a single line -/

/-- The colon that ends a header. -/
def colonOn (number : Nat) : Token :=
  (Token.mark .colon).onLine number

/-- A header opens its block with a colon and a line break, and the block is closed
    after its last line. -/
theorem laid_header {depth : Nat} {body : List TextLine} (nested : Nested (depth + 1) body)
    (head : List Token) (number closing : Nat) :
    laid depth depth number closing (⟨depth, head ++ [Token.mark .colon]⟩ :: body) =
      head.map (Token.onLine number) ++ colonOn number :: Token.newline number ::
        (laid (depth + 1) (depth + 1) (number + 1) closing body ++
          [Token.closeBlock closing]) := by
  have opened : laid depth depth (number + 1) closing body =
      laid (depth + 1) depth (number + 1) closing body := by
    obtain ⟨line, rest, rfl, atDepth⟩ := nested.starts
    simp [laid, atDepth]
  rw [laid, opened, laid_close nested.inside (Nat.le_refl _)]
  simp [colonOn]

/-- Lines of one depth, and then more lines of the same depth or none. -/
theorem laid_follow {depth : Nat} {first second : List TextLine} (leading : Nested depth first)
    (following : second = [] ∨ Nested depth second) (number closing : Nat) :
    ∃ between, laid depth depth number closing (first ++ second) =
      laid depth depth number between first ++
        laid depth depth (number + first.length) closing second := by
  rcases following with rfl | following
  · exact ⟨closing, by simp [laid]⟩
  · exact ⟨_, laid_append leading.inside (Nat.le_refl depth) following.starts _ _ _⟩

/-- Lines of one depth may be followed by nothing, or by more lines of the same depth. Both occur
    behind a branch of a chain. -/
theorem nested_follow {depth : Nat} {first second : List TextLine} (leading : Nested depth first)
    (following : second = [] ∨ Nested depth second) : Nested depth (first ++ second) := by
  rcases following with rfl | following
  · rwa [List.append_nil]
  · exact leading.append following

/-- A line break before statements changes nothing about the statements that are derived, nor about
    their functions. -/
theorem derives_break {first : Nat} {tokens : List Token} {statements : List Statement}
    {functions : List Definition} {lineBreak : Token} (isBreak : lineBreak.kind = .newline)
    (derived : Derives first tokens (.statements statements) functions) :
    Derives first (lineBreak :: tokens) (.statements statements) functions := by
  have breaks {gap : List Token} (isGap : Breaks gap) : Breaks (lineBreak :: gap) := by
    intro token member
    rcases List.mem_cons.mp member with rfl | member
    · exact isBreak
    · exact isGap token member
  cases derived with
  | listEnd first gap isGap => exact .listEnd first _ (breaks isGap)
  | simple first gap tokens later statement statements functions isGap derived ends continued =>
      exact .simple first (lineBreak :: gap) tokens later statement statements functions
        (breaks isGap) derived ends continued
  | compound first gap tokens later statement statements functions laterFunctions isGap derived
      continued =>
      exact .compound first (lineBreak :: gap) tokens later statement statements functions
        laterFunctions (breaks isGap) derived continued

/-! ## One statement -/

section Recoverable

variable (functions : List Definition) (bound : Nat)

/-- The functions whose definitions end in the bodies of the first functions. -/
abbrev endingsBelow : List (List Nat) :=
  Definition.endings (functions.take bound)

/-- How the first functions are written. -/
abbrev writingsBelow : List Writing :=
  Definition.writings (functions.take bound)

/-- The written statement, when it defines the functions from `first` on, has the
    form of nested lines at any depth, and reads as the same statement before any
    others. -/
def Statement.Recoverable (statement : Statement) : Prop :=
  ∀ first depth, Consecutive first (statement.ended (endingsBelow functions bound)) →
    first + (statement.ended (endingsBelow functions bound)).length ≤ bound →
    Nested depth (statement.lines (writingsBelow functions bound) depth) ∧
    ∀ number closing, ∃ result defined,
      result.onLine 0 = statement.onLine 0 ∧
      Recovered functions first (statement.ended (endingsBelow functions bound)).length defined ∧
      ∀ later statements laterDefined,
        Derives (first + defined.length) later (.statements statements) laterDefined →
        Derives first
          (laid depth depth number closing
            (statement.lines (writingsBelow functions bound) depth) ++ later)
          (.statements (result :: statements)) (defined ++ laterDefined)

/-- The written block, between its header and its end, reads as the same block. -/
def Block.Recoverable (body : Block Statement) : Prop :=
  ∀ first depth, Consecutive first (Block.ended (endingsBelow functions bound) body) →
    first + (Block.ended (endingsBelow functions bound) body).length ≤ bound →
    Nested depth (Block.lines (writingsBelow functions bound) depth body) ∧
    ∀ number closing, ∃ result defined,
      Block.onLine 0 result = Block.onLine 0 body ∧
      Recovered functions first (Block.ended (endingsBelow functions bound) body).length defined ∧
      Derives first
        (colonOn number :: Token.newline number ::
          (laid depth depth (number + 1) closing
              (Block.lines (writingsBelow functions bound) depth body) ++
            [Token.closeBlock closing]))
        (.block result) defined

variable {functions bound}

/-- A statement on one line reads back if its tokens derive it. It has no functions, and there is no
    block that would have to be closed. -/
theorem simple_recoverable {statement : Statement} {tokens : List Token}
    (lines : ∀ definitions depth, statement.lines definitions depth = [⟨depth, tokens⟩])
    (ended : ∀ earlier, statement.ended earlier = []) (nonempty : tokens ≠ [])
    (spelled : ∀ token ∈ tokens, token.Spelled)
    (derives : ∀ number, SimpleOf (tokens.map (Token.onLine number)) (statement.onLine number))
    (same : ∀ number, (statement.onLine number).onLine 0 = statement.onLine 0) :
    statement.Recoverable functions bound := by
  intro first depth _ _
  rw [lines, ended]
  refine ⟨Nested.single ⟨nonempty, spelled⟩, fun number closing => ?_⟩
  refine ⟨statement.onLine number, [], same number, Recovered.none functions first, ?_⟩
  intro later statements laterDefined continued
  have laidOut : laid depth depth number closing [⟨depth, tokens⟩] ++ later =
      [] ++ (tokens.map (Token.onLine number) ++ Token.newline number :: later) := by
    simp [laid]
  rw [laidOut]
  exact .simple first [] _ (Token.newline number :: later) _ statements laterDefined
    (by simp [Breaks]) (derives number) (by simp [LineEnds, Token.newline])
    (derives_break rfl continued)

/-- A statement that ends with a block may be followed by any statements. -/
theorem compound_then {first : Nat} {tokens : List Token} {statement : Statement}
    {defined : List Definition} (derived : Derives first tokens (.compound statement) defined) :
    ∀ later statements laterDefined,
      Derives (first + defined.length) later (.statements statements) laterDefined →
      Derives first (tokens ++ later) (.statements (statement :: statements))
        (defined ++ laterDefined) := by
  intro later statements laterDefined continued
  exact .compound first [] tokens later statement statements defined laterDefined
    (by simp [Breaks]) derived continued

/-! ## Blocks -/

/-- Statements one after another read as the same statements. Line breaks may
    follow. -/
theorem statements_recoverable {statements : List Statement}
    (recoverable : ∀ statement ∈ statements, statement.Recoverable functions bound)
    {first : Nat} (depth : Nat)
    (consecutive : Consecutive first (Statement.endedAll (endingsBelow functions bound) statements))
    (within : first + (Statement.endedAll (endingsBelow functions bound) statements).length ≤ bound) :
    (statements = [] ∧ Statement.linesAll (writingsBelow functions bound) depth statements = [] ∨
      Nested depth (Statement.linesAll (writingsBelow functions bound) depth statements)) ∧
    ∀ number closing tail, Breaks tail → ∃ results defined,
      Statement.onLineAll 0 results = Statement.onLineAll 0 statements ∧
      Recovered functions first
        (Statement.endedAll (endingsBelow functions bound) statements).length defined ∧
      Derives first
        (laid depth depth number closing
          (Statement.linesAll (writingsBelow functions bound) depth statements) ++ tail)
        (.statements results) defined := by
  induction statements generalizing first with
  | nil =>
      refine ⟨Or.inl ⟨rfl, rfl⟩, fun number closing tail breaks => ?_⟩
      exact ⟨[], [], rfl, Recovered.none functions first,
        by simpa [Statement.linesAll, laid] using Derives.listEnd first tail breaks⟩
  | cons statement statements ih =>
      rw [Statement.endedAll] at consecutive within
      obtain ⟨consecutiveHere, consecutiveLater⟩ := consecutive_append.mp consecutive
      rw [List.length_append] at within
      obtain ⟨nestedHere, readsHere⟩ :=
        recoverable statement (by simp) first depth consecutiveHere (by omega)
      obtain ⟨nestedLater, readsLater⟩ :=
        ih (fun other member => recoverable other (List.mem_cons_of_mem statement member))
          consecutiveLater (by omega)
      have following := nestedLater.imp_left And.right
      rw [Statement.linesAll]
      refine ⟨Or.inr (nested_follow nestedHere following), fun number closing tail breaks => ?_⟩
      obtain ⟨between, cut⟩ := laid_follow nestedHere following number closing
      obtain ⟨result, defined, same, recovered, reads⟩ := readsHere number between
      obtain ⟨results, laterDefined, laterSame, laterRecovered, derived⟩ :=
        readsLater (number + (statement.lines (writingsBelow functions bound) depth).length)
          closing tail breaks
      refine ⟨result :: results, defined ++ laterDefined, ?_, ?_, ?_⟩
      · rw [Statement.onLineAll, Statement.onLineAll, same, laterSame]
      · rw [Statement.endedAll, List.length_append]
        exact recovered.append laterRecovered
      · rw [cut, List.append_assoc]
        apply reads
        rwa [recovered.1]

/-- A block reads back if it is not empty and all its statements do, in whatever order functions are
    defined in them. -/
theorem block_recoverable {body : Block Statement} (nonempty : body.statements ≠ [])
    (recoverable : ∀ statement ∈ body.statements, statement.Recoverable functions bound) :
    body.Recoverable functions bound := by
  obtain ⟨line, statements⟩ := body
  intro first depth consecutive within
  obtain ⟨nested, reads⟩ := statements_recoverable recoverable depth consecutive within
  refine ⟨nested.resolve_left fun empty => nonempty empty.1, fun number closing => ?_⟩
  obtain ⟨results, defined, same, recovered, derived⟩ :=
    reads (number + 1) closing [] (by simp [Breaks])
  rw [List.append_nil] at derived
  have resultsNonempty : results ≠ [] := by
    rintro rfl
    cases statements with
    | nil => exact nonempty rfl
    | cons statement statements => simp [Statement.onLineAll] at same
  refine ⟨⟨number, results⟩, defined, ?_, recovered, ?_⟩
  · rw [Block.onLine, Block.onLine, same]
  · exact .block first _ _ _ _ results defined rfl rfl rfl resultsNonempty derived

/-- A header can be spelled out if everything before its colon can. -/
theorem header_spelled (depth : Nat) {head : List Token}
    (spelled : ∀ token ∈ head, token.Spelled) :
    TextLine.Spelled ⟨depth, head ++ [Token.mark .colon]⟩ := by
  refine ⟨by simp, fun token member => ?_⟩
  rcases List.mem_append.mp member with inHead | isColon
  · exact spelled token inHead
  · rw [List.mem_singleton.mp isColon]
    exact Token.mark_spelled rfl

/-! ## Chains -/

/-- The lines of what follows the first branch of a chain. -/
def continuationLines (definitions : List Writing) (depth : Nat)
    (branches : List (Branch Statement)) (otherwise : Option (Block Statement)) :
    List TextLine :=
  Branch.linesAll definitions depth branches ++
    match otherwise with
    | none => []
    | some body =>
        ⟨depth, [Token.mark .elseWord] ++ [Token.mark .colon]⟩ ::
          Block.lines definitions (depth + 1) body

/-- The functions whose definitions end in what follows the first branch of a
    chain. -/
def continuationEnded (earlier : List (List Nat)) (branches : List (Branch Statement))
    (otherwise : Option (Block Statement)) : List Nat :=
  Branch.endedAll earlier branches ++
    match otherwise with
    | none => []
    | some body => Block.ended earlier body

/-- The lines of a continued chain are those of the next branch, its header and its block, and then
    those of what continues after it. -/
theorem continuationLines_cons (definitions : List Writing) (depth : Nat) (keyword : Token)
    (condition : Comparison) (body : Block Statement) (branches : List (Branch Statement))
    (otherwise : Option (Block Statement)) :
    continuationLines definitions depth (⟨keyword, condition, body⟩ :: branches) otherwise =
      (⟨depth, (keyword :: condition.tokens) ++ [Token.mark .colon]⟩ ::
        Block.lines definitions (depth + 1) body) ++
        continuationLines definitions depth branches otherwise := by
  simp [continuationLines, Branch.linesAll]

/-- The functions that end in a continued chain are those in the next branch and then those in what
    continues after it. -/
theorem continuationEnded_cons (earlier : List (List Nat)) (keyword : Token)
    (condition : Comparison) (body : Block Statement) (branches : List (Branch Statement))
    (otherwise : Option (Block Statement)) :
    continuationEnded earlier (⟨keyword, condition, body⟩ :: branches) otherwise =
      Block.ended earlier body ++ continuationEnded earlier branches otherwise := by
  simp [continuationEnded, Branch.endedAll]

/-- What follows the first branch of a chain, when it defines the functions from
    `first` on, is nothing or nested lines, and reads on with the same branches. -/
def ContinuationRecoverable (functions : List Definition) (bound : Nat)
    (branches : List (Branch Statement)) (otherwise : Option (Block Statement)) : Prop :=
  ∀ first depth,
    Consecutive first (continuationEnded (endingsBelow functions bound) branches otherwise) →
    first + (continuationEnded (endingsBelow functions bound) branches otherwise).length ≤ bound →
    (continuationLines (writingsBelow functions bound) depth branches otherwise = [] ∨
      Nested depth (continuationLines (writingsBelow functions bound) depth branches otherwise)) ∧
    ∀ number closing, ∃ results last defined,
      Branch.onLineAll 0 results = Branch.onLineAll 0 branches ∧
      last.map (Block.onLine 0) = otherwise.map (Block.onLine 0) ∧
      Recovered functions first
        (continuationEnded (endingsBelow functions bound) branches otherwise).length defined ∧
      Derives first
        (laid depth depth number closing
          (continuationLines (writingsBelow functions bound) depth branches otherwise))
        (.continuation results last) defined

/-- A branch and what follows it, whichever word the branch starts with: the lines are
    nested, and they are laid out as a header, the block and the rest of the chain. -/
theorem branch_reads {keyword : Token} {condition : Comparison} {body : Block Statement}
    {branches : List (Branch Statement)} {otherwise : Option (Block Statement)}
    (keywordSpelled : keyword.Spelled) (compared : condition.WellFormed)
    (recoverable : body.Recoverable functions bound)
    (continuation : ContinuationRecoverable functions bound branches otherwise)
    {first : Nat} (depth : Nat)
    (consecutive : Consecutive first (continuationEnded (endingsBelow functions bound)
      (⟨keyword, condition, body⟩ :: branches) otherwise))
    (within : first + (continuationEnded (endingsBelow functions bound)
      (⟨keyword, condition, body⟩ :: branches) otherwise).length ≤ bound) :
    Nested depth (continuationLines (writingsBelow functions bound) depth
      (⟨keyword, condition, body⟩ :: branches) otherwise) ∧
    ∀ number closing, ∃ result results last defined laterDefined tokens later,
      Branch.onLineAll 0 (⟨keyword.onLine number, condition.onLine number, result⟩ :: results) =
        Branch.onLineAll 0 (⟨keyword, condition, body⟩ :: branches) ∧
      last.map (Block.onLine 0) = otherwise.map (Block.onLine 0) ∧
      Recovered functions first (continuationEnded (endingsBelow functions bound)
        (⟨keyword, condition, body⟩ :: branches) otherwise).length (defined ++ laterDefined) ∧
      laid depth depth number closing (continuationLines (writingsBelow functions bound) depth
          (⟨keyword, condition, body⟩ :: branches) otherwise) =
        keyword.onLine number ::
          (condition.tokens.map (Token.onLine number) ++ (tokens ++ later)) ∧
      Derives first tokens (.block result) defined ∧
      Derives (first + defined.length) later (.continuation results last) laterDefined := by
  rw [continuationEnded_cons] at consecutive within ⊢
  rw [continuationLines_cons]
  obtain ⟨consecutiveHere, consecutiveLater⟩ := consecutive_append.mp consecutive
  rw [List.length_append] at within
  obtain ⟨nestedBody, readsBody⟩ := recoverable first (depth + 1) consecutiveHere (by omega)
  obtain ⟨following, readsLater⟩ := continuation _ depth consecutiveLater (by omega)
  have spelled : ∀ token ∈ keyword :: condition.tokens, token.Spelled := by
    simpa using ⟨keywordSpelled, compared.spelled⟩
  have nestedHere := Nested.header (header_spelled depth spelled) nestedBody
  refine ⟨nested_follow nestedHere following, fun number closing => ?_⟩
  obtain ⟨between, cut⟩ := laid_follow nestedHere following number closing
  obtain ⟨result, defined, same, recovered, derived⟩ := readsBody number between
  obtain ⟨results, last, laterDefined, laterSame, lastSame, laterRecovered, continued⟩ :=
    readsLater (number + (Block.lines (writingsBelow functions bound) (depth + 1) body).length + 1)
      closing
  rw [← recovered.1] at continued
  refine ⟨result, results, last, defined, laterDefined, _, _, ?_, lastSame, ?_, ?_, derived,
    continued⟩
  · simp [Branch.onLineAll, same, laterSame]
  · rw [List.length_append]
    exact recovered.append laterRecovered
  · rw [cut, laid_header nestedBody]
    simp [Nat.add_assoc]

/-- A chain reads on with the same branches, by induction on them. After the last one there is an
    `else` with its block, or nothing. -/
theorem continuation_recoverable {branches : List (Branch Statement)}
    {otherwise : Option (Block Statement)}
    (isElif : ∀ branch ∈ branches, branch.keyword.Fits (·.kind = .elifWord))
    (compared : ∀ branch ∈ branches, branch.condition.WellFormed)
    (recoverable : ∀ branch ∈ branches, branch.body.Recoverable functions bound)
    (otherwiseRecoverable : ∀ body ∈ otherwise, Block.Recoverable functions bound body) :
    ContinuationRecoverable functions bound branches otherwise := by
  induction branches with
  | nil =>
      intro first depth consecutive within
      cases otherwise with
      | none =>
          refine ⟨Or.inl rfl, fun number closing => ?_⟩
          exact ⟨[], none, [], rfl, rfl, Recovered.none functions first,
            by simpa [continuationLines, Branch.linesAll, laid] using Derives.chainEnd first⟩
      | some body =>
          obtain ⟨nested, reads⟩ :=
            otherwiseRecoverable body rfl first (depth + 1) consecutive within
          have spelled : ∀ token ∈ [Token.mark .elseWord], token.Spelled := by
            simpa using Token.mark_spelled rfl
          refine ⟨Or.inr (Nested.header (header_spelled depth spelled) nested),
            fun number closing => ?_⟩
          obtain ⟨result, defined, same, recovered, derived⟩ := reads number closing
          refine ⟨[], some result, defined, rfl, by simp [same], recovered, ?_⟩
          rw [continuationLines, Branch.linesAll, List.nil_append, laid_header nested]
          exact .otherwise first [] _ _ result defined (by simp [Breaks]) rfl derived
  | cons branch branches ih =>
      obtain ⟨keyword, condition, body⟩ := branch
      intro first depth consecutive within
      have continuation := ih (fun other member => isElif other (List.mem_cons_of_mem _ member))
        (fun other member => compared other (List.mem_cons_of_mem _ member))
        (fun other member => recoverable other (List.mem_cons_of_mem _ member))
      have keywordFits : keyword.Fits (·.kind = .elifWord) :=
        isElif ⟨keyword, condition, body⟩ List.mem_cons_self
      have conditionFormed : condition.WellFormed :=
        compared ⟨keyword, condition, body⟩ List.mem_cons_self
      obtain ⟨nested, reads⟩ := branch_reads keywordFits.2 conditionFormed
        (recoverable ⟨keyword, condition, body⟩ List.mem_cons_self) continuation depth consecutive
        within
      refine ⟨Or.inr nested, fun number closing => ?_⟩
      obtain ⟨result, results, last, defined, laterDefined, tokens, later, same, lastSame, recovered,
        laidOut, derived, continued⟩ := reads number closing
      refine ⟨_, last, defined ++ laterDefined, same, lastSame, recovered, ?_⟩
      rw [laidOut]
      exact .branch first [] _ _ tokens later _ result results last defined laterDefined
        (by simp [Breaks]) keywordFits.1 (conditionFormed.derives number) derived continued

/-- A chain is written as a continuation that has all the branches, the first one included. -/
theorem lines_ifChain (definitions : List Writing) (depth : Nat)
    (branches : List (Branch Statement)) (otherwise : Option (Block Statement)) :
    (Statement.ifChain branches otherwise).lines definitions depth =
      continuationLines definitions depth branches otherwise := by
  cases otherwise <;> simp [Statement.lines, continuationLines]

/-- The functions that end in a chain are those that end in a continuation that has all the
    branches. -/
theorem ended_ifChain (earlier : List (List Nat)) (branches : List (Branch Statement))
    (otherwise : Option (Block Statement)) :
    (Statement.ifChain branches otherwise).ended earlier =
      continuationEnded earlier branches otherwise := by
  cases otherwise <;> simp [Statement.ended, continuationEnded]

/-- Moving a chain to a line moves all of its branches there and the block of its `else`, if it has
    one. -/
theorem onLine_ifChain (number : Nat) (branches : List (Branch Statement))
    (otherwise : Option (Block Statement)) :
    (Statement.ifChain branches otherwise).onLine number =
      .ifChain (Branch.onLineAll number branches) (otherwise.map (Block.onLine number)) := by
  cases otherwise <;> simp [Statement.onLine]

/-- A chain reads back if all its blocks do: it is its first branch, which starts with another word,
    and what follows it. -/
theorem ifChain_recoverable {first : Branch Statement} {branches : List (Branch Statement)}
    {otherwise : Option (Block Statement)} (isIf : first.keyword.Fits (·.kind = .ifWord))
    (isElif : ∀ branch ∈ branches, branch.keyword.Fits (·.kind = .elifWord))
    (compared : ∀ branch ∈ first :: branches, branch.condition.WellFormed)
    (recoverable : ∀ branch ∈ first :: branches, branch.body.Recoverable functions bound)
    (otherwiseRecoverable : ∀ body ∈ otherwise, Block.Recoverable functions bound body) :
    (Statement.ifChain (first :: branches) otherwise).Recoverable functions bound := by
  obtain ⟨keyword, condition, body⟩ := first
  have conditionFormed : condition.WellFormed :=
    compared ⟨keyword, condition, body⟩ List.mem_cons_self
  have continuation := continuation_recoverable isElif
    (fun other member => compared other (List.mem_cons_of_mem _ member))
    (fun other member => recoverable other (List.mem_cons_of_mem _ member)) otherwiseRecoverable
  intro index depth consecutive within
  rw [ended_ifChain] at consecutive within ⊢
  rw [lines_ifChain]
  obtain ⟨nested, reads⟩ := branch_reads isIf.2 conditionFormed
    (recoverable ⟨keyword, condition, body⟩ List.mem_cons_self) continuation depth consecutive within
  refine ⟨nested, fun number closing => ?_⟩
  obtain ⟨result, results, last, defined, laterDefined, tokens, later, same, lastSame, recovered,
    laidOut, derived, continued⟩ := reads number closing
  refine ⟨.ifChain (⟨keyword.onLine number, condition.onLine number, result⟩ :: results) last,
    defined ++ laterDefined, ?_, recovered, compound_then ?_⟩
  · rw [onLine_ifChain, onLine_ifChain, same, lastSame]
  · rw [laidOut]
    exact .ifChain index _ _ tokens later _ result results last defined laterDefined isIf.1
      (conditionFormed.derives number) derived continued

/-! ## Loops and definitions -/

/-- A loop with a condition reads back if its block does. Its header is a keyword and a condition,
    both on one line. -/
theorem whileLoop_recoverable {keyword : Token} {condition : Comparison} {body : Block Statement}
    (isWhile : keyword.Fits (·.kind = .whileWord)) (compared : condition.WellFormed)
    (recoverable : body.Recoverable functions bound) :
    (Statement.whileLoop keyword condition body).Recoverable functions bound := by
  intro first depth consecutive within
  rw [Statement.ended] at consecutive within ⊢
  obtain ⟨nested, reads⟩ := recoverable first (depth + 1) consecutive within
  have spelled : ∀ token ∈ keyword :: condition.tokens, token.Spelled := by
    simpa using ⟨isWhile.2, compared.spelled⟩
  rw [Statement.lines]
  refine ⟨Nested.header (header_spelled depth spelled) nested, fun number closing => ?_⟩
  obtain ⟨result, defined, same, recovered, derived⟩ := reads number closing
  refine ⟨.whileLoop (keyword.onLine number) (condition.onLine number) result, defined, ?_,
    recovered, compound_then ?_⟩
  · simp [Statement.onLine, same]
  · rw [← List.cons_append, laid_header nested]
    exact .whileLoop first _ _ _ _ result defined isWhile.1 (compared.derives number) derived

/-- A loop over a range reads back if its block does. The tokens of its header are either marks or
    leaves that fit at their places. -/
theorem forRange_recoverable {keyword counter start stop : Token} {body : Block Statement}
    (isFor : keyword.Fits (·.kind = .forWord)) (isName : counter.Fits (·.kind = .identifier))
    (startBound : start.Fits Bound) (stopBound : stop.Fits Bound)
    (recoverable : body.Recoverable functions bound) :
    (Statement.forRange keyword counter start stop body).Recoverable functions bound := by
  intro first depth consecutive within
  rw [Statement.ended] at consecutive within ⊢
  obtain ⟨nested, reads⟩ := recoverable first (depth + 1) consecutive within
  let head : List Token :=
    [keyword, counter, Token.mark .inWord, Token.mark .range, Token.mark .leftParen, start,
      Token.mark .comma, stop, Token.mark .rightParen]
  have spelled : ∀ token ∈ head, token.Spelled := by
    have mark {kind : Kind} (fixed : kind.spelling?.isSome = true) := Token.mark_spelled fixed
    simpa [head] using ⟨isFor.2, isName.2, mark rfl, mark rfl, mark rfl, startBound.2, mark rfl,
      stopBound.2, mark rfl⟩
  rw [Statement.lines]
  refine ⟨Nested.header (header_spelled depth spelled) nested, fun number closing => ?_⟩
  obtain ⟨result, defined, same, recovered, derived⟩ := reads number closing
  refine ⟨.forRange (keyword.onLine number) (counter.onLine number) (start.onLine number)
    (stop.onLine number) result, defined, ?_, recovered, compound_then ?_⟩
  · simp [Statement.onLine, same]
  · have laidOut := laid_header nested head number closing
    simp only [head, List.cons_append, List.nil_append] at laidOut
    rw [laidOut]
    exact .forRange first _ _ _ _ _ _ _ _ _ _ result defined isFor.1 isName.1 rfl rfl rfl
      startBound.1 rfl stopBound.1 rfl derived

/-- A placeholder is written as its definition, and the definition is found again.
    Its body is one of those that may only meet functions before it. -/
theorem hoisted_recoverable (within : bound ≤ functions.length)
    (wellFormed : ∀ definition ∈ functions, definition.WellFormed)
    (earlier : ∀ index < bound, ∀ definition, functions[index]? = some definition →
      definition.body.Recoverable functions index) (index line : Nat) :
    (Statement.hoisted index line).Recoverable functions bound := by
  intro first depth consecutive below
  rw [Statement.ended] at consecutive below ⊢
  obtain ⟨consecutiveBody, last⟩ := consecutive_append.mp consecutive
  have isIndex : index = first + ((endingsBelow functions bound)[index]?.getD []).length := by
    simpa [Consecutive] using last
  rw [List.length_append, List.length_singleton] at below
  have inside : index < bound := by omega
  obtain ⟨definition, found⟩ : ∃ definition, functions[index]? = some definition :=
    ⟨_, List.getElem?_eq_getElem (Nat.lt_of_lt_of_le inside within)⟩
  have formed := wellFormed definition (List.mem_of_getElem? found)
  have foundBelow : (functions.take bound)[index]? = some definition := by
    rw [List.getElem?_take_of_lt inside, found]
  have shorter : (functions.take bound).take index = functions.take index := by
    rw [List.take_take, Nat.min_eq_left (Nat.le_of_lt inside)]
  have endings : (endingsBelow functions bound)[index]?.getD [] =
      Block.ended (endingsBelow functions index) definition.body := by
    rw [endingsBelow, Definition.endings, accumulate_getElem?, foundBelow, shorter]
    rfl
  have writings : (Statement.hoisted index line).lines (writingsBelow functions bound) depth =
      ⟨depth, definition.header⟩ ::
        Block.lines (writingsBelow functions index) (depth + 1) definition.body := by
    rw [Statement.lines, writingsBelow, Definition.writings, accumulate_getElem?, foundBelow,
      shorter]
    rfl
  rw [endings] at consecutiveBody isIndex ⊢
  obtain ⟨nested, reads⟩ :=
    earlier index inside definition found first (depth + 1) consecutiveBody (by omega)
  have spelled : TextLine.Spelled ⟨depth, definition.header⟩ :=
    ⟨by simp [Definition.header], formed.spelled⟩
  rw [writings]
  refine ⟨Nested.header spelled nested, fun number closing => ?_⟩
  obtain ⟨result, defined, same, recovered, derived⟩ := reads number closing
  refine ⟨.hoisted (first + defined.length) number,
    defined ++ [{ definition.onLine number with body := result }], ?_, ?_, compound_then ?_⟩
  · rw [Statement.onLine, Statement.onLine, recovered.1, ← isIndex]
  · rw [List.length_append]
    refine recovered.append ⟨rfl, ?_⟩
    rw [← isIndex, List.length_singleton, List.take_one, List.head?_drop, found]
    simp [Definition.onLine, same, Parameter.onLine, Function.comp_def]
  · rw [Definition.header_eq, laid_header nested]
    have whole := Derives.definition first (definition.keyword.onLine number)
      (definition.name.onLine number) ((Token.mark .leftParen).onLine number)
      ((Token.mark .rightParen).onLine number) _ _ _ _ _ result defined formed.keyword.1
      formed.name.1 rfl (Parameter.derives_all formed.parameters number) rfl
      (formed.result_derives number) derived
    simpa [Definition.onLine] using whole

/-- Every well-formed statement reads back as itself. The outer induction is on the
    number of functions that may be met, the inner one on the statement. -/
theorem statement_recoverable (functions : List Definition)
    (definitions : ∀ definition ∈ functions, definition.WellFormed) (bound : Nat)
    (within : bound ≤ functions.length) {statement : Statement}
    (wellFormed : statement.WellFormed) : statement.Recoverable functions bound := by
  induction bound using Nat.strongRecOn generalizing statement with
  | ind bound earlier =>
      induction wellFormed with
      | forRange keyword counter start stop body isFor isName startBound stopBound nonempty _ ih =>
          exact forRange_recoverable isFor isName startBound stopBound
            (block_recoverable nonempty ih)
      | whileLoop keyword condition body isWhile compared nonempty _ ih =>
          exact whileLoop_recoverable isWhile compared (block_recoverable nonempty ih)
      | ifChain first branches otherwise isIf isElif compared nonempty _ otherwiseNonempty _ ih
          otherwiseIh =>
          exact ifChain_recoverable isIf isElif compared
            (fun branch member => block_recoverable (nonempty branch member) (ih branch member))
            (fun body member =>
              block_recoverable (otherwiseNonempty body member) (otherwiseIh body member))
      | declaration name type value isName isType initial =>
          have colon : (Token.mark .colon).Spelled := Token.mark_spelled rfl
          have assign : (Token.mark .assign).Spelled := Token.mark_spelled rfl
          refine simple_recoverable (fun _ _ => rfl) (fun _ => rfl) (List.cons_ne_nil _ _)
            (by simpa using ⟨isName.2, colon, isType.2, assign, initial.1.spelled⟩)
            (fun number => ?_) (fun number => ?_)
          · exact .declaration _ _ _ _ _ _ isName.1 rfl isType.1 rfl (initial.derives number)
          · simp [Statement.onLine, initial.1.onLine_onLine]
      | manipulation target value isTarget wellFormed =>
          have assign : (Token.mark .assign).Spelled := Token.mark_spelled rfl
          refine simple_recoverable (fun _ _ => rfl) (fun _ => rfl) (List.cons_ne_nil _ _)
            (by simpa using ⟨isTarget.2, assign, wellFormed.spelled⟩)
            (fun number => ?_) (fun number => ?_)
          · exact .manipulation _ _ _ _ isTarget.1 rfl (wellFormed.derives number)
          · simp [Statement.onLine]
      | call callee arguments wellFormed =>
          refine simple_recoverable (fun _ _ => rfl) (fun _ => rfl) (by simp [Value.tokens])
            wellFormed.spelled (fun number => ?_) (fun number => ?_)
          · exact .call _ _ _ (wellFormed.derives number)
          · simpa [Statement.onLine, Value.onLine] using wellFormed.onLine_onLine number 0
      | returnValue keyword value isReturn isOperand =>
          refine simple_recoverable (fun _ _ => rfl) (fun _ => rfl) (List.cons_ne_nil _ _)
            (by simpa using ⟨isReturn.2, isOperand.2⟩) (fun number => ?_) (fun number => ?_)
          · exact .returnValue _ _ isReturn.1 isOperand.1
          · simp [Statement.onLine]
      | hoisted index line =>
          refine hoisted_recoverable within definitions ?_ index line
          intro index below definition found
          have formed := definitions definition (List.mem_of_getElem? found)
          exact block_recoverable formed.nonempty fun statement member =>
            earlier index below (by omega) (formed.body statement member)

end Recoverable

/-! ## Whole programs -/

/-- The laid out lines of a well-formed program stand for the program. -/
theorem program_recoverable {program : Program} (wellFormed : program.WellFormed) :
    (∀ line ∈ program.lines, line.Spelled) ∧ Climbs 0 program.lines ∧
      ∀ last, ∃ result, ProgramOf (laid 0 0 1 last program.lines ++ [Token.newline last]) result ∧
        result.onLine 0 = program.onLine 0 := by
  obtain ⟨clause, body, functions⟩ := program
  obtain ⟨clauseFormed, bodyFormed, functionsFormed, numbered⟩ := wellFormed
  dsimp only at clauseFormed bodyFormed functionsFormed numbered
  have whole : functions.take functions.length = functions := List.take_length
  have consecutive : Consecutive 0
      (Statement.endedAll (endingsBelow functions functions.length) body) := by
    rw [Consecutive, endingsBelow, whole, numbered, List.length_range, List.range_eq_range']
  have within : 0 + (Statement.endedAll (endingsBelow functions functions.length) body).length ≤
      functions.length := by
    apply Nat.le_of_eq
    rw [endingsBelow, whole, numbered, List.length_range, Nat.zero_add]
  obtain ⟨nested, reads⟩ := statements_recoverable
    (fun statement member => statement_recoverable functions functionsFormed functions.length
      (Nat.le_refl _) (bodyFormed statement member)) 0 consecutive within
  rw [writingsBelow, whole] at nested reads
  have clauseSpelled : TextLine.Spelled ⟨0, clause.tokens⟩ := by
    refine ⟨?_, clauseFormed.spelled⟩
    unfold ImportClause.tokens
    split <;> exact List.cons_ne_nil _ _
  have allNested : Nested 0 (Program.lines ⟨clause, body, functions⟩) :=
    nested_follow (Nested.single clauseSpelled) (nested.imp_left And.right)
  refine ⟨allNested.spelled, allNested.climbs, fun last => ?_⟩
  obtain ⟨results, defined, same, recovered, derived⟩ :=
    reads 2 last [Token.newline last] (by simp [Breaks, Token.newline])
  refine ⟨⟨clause.onLine 1, results, defined⟩, ?_, ?_⟩
  · have laidOut : laid 0 0 1 last (Program.lines ⟨clause, body, functions⟩) ++
        [Token.newline last] =
        [] ++ (clause.tokens.map (Token.onLine 1) ++ Token.newline 1 ::
          (laid 0 0 2 last (Statement.linesAll (Definition.writings functions) 0 body) ++
            [Token.newline last])) := by
      simp [Program.lines, laid]
    rw [laidOut]
    exact .program [] _ _ _ results defined (by simp [Breaks]) (clauseFormed.derives 1)
      (by simp [LineEnds, Token.newline]) (derives_break rfl derived)
  · have sameFunctions : defined.map (Definition.onLine 0) =
        functions.map (Definition.onLine 0) := by
      rw [recovered.2, endingsBelow, whole, numbered, List.length_range, List.drop_zero,
        List.take_length]
    simp [Program.onLine, same, sameFunctions, ImportClause.onLine, Function.comp_def]

/-- A well-formed program, written out as text and then scanned, laid out and
    parsed, is found again up to line numbers. -/
theorem parsed_text (program : Program) (wellFormed : program.WellFormed) :
    ∃ result, (parsed (Utf8.encode program.text)).outcome = .ok result ∧
      result.onLine 0 = program.onLine 0 := by
  obtain ⟨spelled, climbs, reads⟩ := program_recoverable wellFormed
  obtain ⟨layout, last, isLaid, laidTokens⟩ := ofTokens_placed spelled climbs
  obtain ⟨result, derived, same⟩ := reads last
  have scanned := scan_textAll (List.cons_ne_nil _ _) spelled
  refine ⟨result, (parsed_ok_iff _ result).mpr ⟨_, layout, scanned, isLaid, ?_⟩, same⟩
  rw [laidTokens]
  exact derived

/-- A definition inside a definition inside a branch, and a chain that goes on after
    all three have ended on one line. -/
theorem parsed_text_nested :
    let name (lexeme : String) : Token := ⟨.identifier, lexeme, 0⟩
    let number (lexeme : String) : Token := ⟨.intLiteral, lexeme, 0⟩
    let text : Token := ⟨.stringLiteral, "\"é\"", 0⟩
    let inner : Definition :=
      ⟨.mark .defWord, name "g", [], none, ⟨0, [.call (.mark .print) [.terminal text]]⟩⟩
    let outer : Definition :=
      ⟨.mark .defWord, name "f", [⟨name "n", name "int"⟩], some (name "int"),
        ⟨0, [.hoisted 0 0, .returnValue (.mark .returnWord) (name "n")]⟩⟩
    let program : Program :=
      ⟨⟨name "GoType", some (.mark .star), 0⟩,
        [.ifChain
          [⟨.mark .ifWord, ⟨⟨name "x", none⟩, some (.mark .equal, ⟨number "1", none⟩)⟩,
            ⟨0, [.hoisted 1 0]⟩⟩]
          (some ⟨0, [.declaration (name "y") (name "int")
            (.call (name "f") [.terminal (number "2")])]⟩)],
        [inner, outer]⟩
    program.text =
      "from GoType import *\n" ++
        "if x == 1 :\n" ++
        "    def f ( n : int ) -> int :\n" ++
        "        def g ( ) :\n" ++
        "            print ( \"é\" )\n" ++
        "        return n\n" ++
        "else :\n" ++
        "    y : int = f ( 2 )\n" ∧
      ∃ result, (parsed (Utf8.encode program.text)).outcome = .ok result ∧
        result.onLine 0 = program.onLine 0 := by
  intro name number text inner outer program
  have isName (lexeme : String) (word : isWord lexeme.toList = true)
      (free : lexeme ∉ Token.reserved) : (name lexeme).Fits (·.kind = .identifier) :=
    ⟨rfl, wordShape_of_isWord word, free⟩
  have isDigit (lexeme : String) (digit : Char) (same : lexeme.toList = [digit])
      (isDigit : digit.isDigit = true) : (number lexeme).Fits Operand :=
    ⟨Or.inr (by simp [Literal, number]), digit, [], same, isDigit, by simp, isDigit⟩
  have isText : text.Fits Operand :=
    ⟨Or.inr (by simp [Literal, text]), ['é'], by decide, by simp⟩
  have innerFormed : inner.WellFormed := by
    refine ⟨⟨rfl, Token.mark_spelled rfl⟩, isName _ (by decide) (by decide), by simp [inner],
      by simp [inner], by simp [inner], ?_⟩
    simp only [inner, List.mem_singleton, forall_eq]
    refine .call _ _ (.call _ _ ⟨Or.inr rfl, Token.mark_spelled rfl⟩ ?_)
    simpa using Value.WellFormed.terminal _ isText
  have outerFormed : outer.WellFormed := by
    refine ⟨⟨rfl, Token.mark_spelled rfl⟩, isName _ (by decide) (by decide), ?_, ?_, by simp [outer],
      ?_⟩
    · simpa [outer] using ⟨isName _ (by decide) (by decide), isName _ (by decide) (by decide)⟩
    · simpa [outer] using isName _ (by decide) (by decide)
    · have operand := isName "n" (by decide) (by decide)
      simp only [outer, List.mem_cons, List.not_mem_nil, or_false, forall_eq_or_imp, forall_eq]
      exact ⟨.hoisted 0 0, .returnValue _ _ ⟨rfl, Token.mark_spelled rfl⟩ ⟨Or.inl rfl, operand.2⟩⟩
  have chainFormed : ∀ statement ∈ program.body, statement.WellFormed := by
    have compared : (name "x").Fits Operand :=
      ⟨Or.inl rfl, (isName "x" (by decide) (by decide)).2⟩
    have equal : (Token.mark .equal).Fits Comparator :=
      ⟨by simp [Comparator, Token.mark], Token.mark_spelled rfl⟩
    have initial : (Value.call (name "f") [.terminal (number "2")]).Initial := by
      refine ⟨.call _ _ ⟨Or.inl rfl, (isName "f" (by decide) (by decide)).2⟩ ?_,
        fun _ isTerminal => by cases isTerminal⟩
      simpa using Value.WellFormed.terminal _ (isDigit "2" '2' (by decide) (by decide))
    simp only [program, List.mem_singleton, forall_eq]
    refine .ifChain _ [] _ ⟨rfl, Token.mark_spelled rfl⟩ (by simp) ?_ (by simp) ?_ (by simp) ?_
    · simp only [List.mem_singleton, forall_eq]
      refine ⟨⟨compared, by simp⟩, ?_⟩
      rintro comparator right isTail
      cases isTail
      exact ⟨equal, isDigit "1" '1' (by decide) (by decide), by simp⟩
    · simpa using Statement.WellFormed.hoisted 1 0
    · simpa using Statement.WellFormed.declaration _ _ _ (isName _ (by decide) (by decide))
        (isName _ (by decide) (by decide)) initial
  have wellFormed : program.WellFormed := by
    refine ⟨⟨⟨rfl, rfl⟩, ?_⟩, chainFormed, ?_, by decide⟩
    · simpa [program] using ⟨Or.inl rfl, Token.mark_spelled rfl⟩
    · simpa [program] using ⟨innerFormed, outerFormed⟩
  exact ⟨by decide +kernel, parsed_text program wellFormed⟩

end Offside
