import Offside.Proofs.Go.Names
import Offside.Proofs.Syntax.Hoisting

/-!
# Braces and tabs

The shape of a Go file can be read off its lines. A line that starts with a closing brace ends a
block, a line that ends with a blank and an opening brace starts one, and the lines of a block
stand one tab deeper than the lines around it. Braces inside of string literals do not disturb
this: no line starts with a literal, and a line that ends with one ends with a quote.

One line may both end a block and start the next, as those between the branches of a chain do.
So a statement is scanned as a whole: it leads from its depth back to its depth.
-/

namespace Offside

open Grammar

namespace Go

/-! ## Scanning a text -/

/-- The lines of a text that are ended by a line break. -/
def endedLines (text : String) : List (List Char) :=
  (text.toList.splitOn '\n').dropLast

/-- The text after the tabs starts with a closing brace. -/
def endsBlock (line : List Char) : Bool :=
  (line.dropWhile (· == '\t')).head? == some '\x7d'

/-- The line ends with a blank and an opening brace. -/
def startsBlock (line : List Char) : Bool :=
  [' ', '\x7b'].isSuffixOf line

/-- The depth after a line. There is none if the line ends a block where none is open, or if
    its tabs are not as many as the blocks that are open around it. Blank lines do not count. -/
def depthAfter? (depth : Nat) (line : List Char) : Option Nat :=
  let ended := (endsBlock line).toNat
  if line = [] then some depth
  else if ended ≤ depth ∧ (line.takeWhile (· == '\t')).length = depth - ended then
    some (depth - ended + (startsBlock line).toNat)
  else none

/-! ## Scanning rows -/

namespace Part

/-- A line that ends with the part does not start a block. -/
def Final : Part → Prop
  | word _ => True
  | mark text => text = ")"
  | gap => False

/-- The last of the parts is such a part. -/
def EndsFinal (parts : List Part) : Prop :=
  ∃ before last, parts = before ++ [last] ∧ last.Final

/-- Whatever stands in front of parts, their last one stays the last. -/
theorem EndsFinal.after {parts : List Part} (ends : EndsFinal parts) (others : List Part) :
    EndsFinal (others ++ parts) := by
  obtain ⟨before, last, rfl, final⟩ := ends
  exact ⟨others ++ before, last, (List.append_assoc ..).symm, final⟩

/-- Parts that are a word alone end with this word. A line that ends with a word starts no block. -/
theorem endsFinal_word (text : String) : EndsFinal [word text] :=
  ⟨[], word text, rfl, trivial⟩

/-- Words do not start with a brace and do not end with one. -/
theorem word_ends {text : String} (valid : (word text).Valid) :
    text.toList.head? ≠ some '\x7d' ∧ text.toList.getLast? ≠ some '\x7b' := by
  rcases valid with ⟨-, inside⟩ | ⟨body, quoted, -⟩
  · have apart {char : Char} (plain : isWordChar char = false) : char ∉ text.toList :=
      fun member => by simp [inside char member] at plain
    exact ⟨fun first => apart (by decide) (List.mem_of_head? first),
      fun last => apart (by decide) (List.mem_of_getLast? last)⟩
  · rw [quoted]
    exact ⟨by simp, by rw [← List.cons_append, List.getLast?_concat]; decide⟩

/-- What starts with a word does not start with a brace. A word is a name, a number or a literal in
    quotes. -/
theorem head?_textAll {text : String} {parts : List Part} (legible : Legible (word text :: parts)) :
    (textAll (word text :: parts)).toList.head? ≠ some '\x7d' := by
  have valid := legible.1 (word text) (by simp)
  obtain ⟨-, first, rest, chars, -⟩ := text_of_valid valid
  have apart := (word_ends valid).1
  rw [Part.text] at chars
  rw [chars] at apart
  simpa [textAll, Part.text, chars] using apart

/-- What ends with a word or a closing bracket does not end with an opening brace. -/
theorem getLast?_textAll {parts : List Part} (legible : Legible parts) (final : EndsFinal parts) :
    (textAll parts).toList.getLast? ≠ some '\x7b' := by
  obtain ⟨before, last, rfl, final⟩ := final
  have valid := legible.1 last (by simp)
  obtain ⟨-, first, rest, chars, -⟩ := text_of_valid valid
  have ends : last.text.toList.getLast? ≠ some '\x7b' := by
    cases last with
    | word text => exact (word_ends valid).2
    | mark text =>
        obtain rfl : text = ")" := final
        decide
    | gap => exact final.elim
  rw [chars] at ends
  simpa [textAll, chars, List.getLast?_append_of_ne_nil] using ends

end Part

/-- The rows lead from one depth to another. -/
def Row.Leads (depth : Nat) (rows : List Row) (after : Nat) : Prop :=
  (rows.map Row.content).foldlM depthAfter? depth = some after

namespace Row

/-- No row leads nowhere else, from any depth. -/
theorem leads_nil (depth : Nat) : Leads depth [] depth := rfl

/-- Rows that lead from one depth to a second, followed by rows that lead from there to a third,
    lead from the first to the third. -/
theorem Leads.append {depth between after : Nat} {rows others : List Row}
    (first : Leads depth rows between) (second : Leads between others after) :
    Leads depth (rows ++ others) after := by
  unfold Leads at first second ⊢
  rw [List.map_append, List.foldlM_append, first]
  exact second

/-- One row leads as far as its content takes the depth, which is how rows are scanned one by
    one. -/
theorem leads_singleton {depth after : Nat} {row : Row}
    (step : depthAfter? depth row.content = some after) : Leads depth [row] after := by
  simp [Leads, step]

/-- A row is scanned at its own depth, or at the next if it ends a block, and it leads to its own
    depth, or to the next if it starts one. -/
theorem leads_code {depth : Nat} {parts : List Part} {ended started : Bool}
    (legible : (code depth parts).Legible)
    (ends : ((Part.textAll parts).toList.head? == some '\x7d') = ended)
    (starts : startsBlock (code depth parts).content = started) :
    Leads (depth + ended.toNat) [code depth parts] (depth + started.toNat) := by
  obtain ⟨tabs, text⟩ := tabs_cut legible
  have nonempty : (code depth parts).content ≠ [] := by
    obtain ⟨part, later, rfl⟩ := List.exists_cons_of_ne_nil legible.1
    obtain ⟨first, rest, chars, -⟩ := Part.textAll_first legible.2
    simp [content, chars]
  apply leads_singleton
  simp [depthAfter?, endsBlock, nonempty, tabs, text, ends, starts]

/-- The row of a header ends with a blank and an opening brace, so it starts a block. -/
theorem startsBlock_header (depth : Nat) (parts : List Part) :
    startsBlock (header depth parts).content = true := by
  rw [startsBlock, List.isSuffixOf_iff_suffix]
  exact ⟨List.replicate depth '\t' ++ (Part.textAll parts).toList, by
    simp [header, content, Part.textAll, Part.text]⟩

/-- A row with a statement on it leads nowhere else. Its first character is no brace, and neither is
    its last one. -/
theorem leads_single {depth : Nat} {text : String} {parts : List Part}
    (legible : (code depth (.word text :: parts)).Legible)
    (final : Part.EndsFinal (.word text :: parts)) :
    Leads depth [code depth (.word text :: parts)] depth := by
  have goesOn := beq_false_of_ne (Part.head?_textAll legible.2)
  have plain : startsBlock (code depth (.word text :: parts)).content = false := by
    have apart := Part.getLast?_textAll legible.2 final
    obtain ⟨first, rest, chars, -⟩ := Part.textAll_first legible.2
    rw [startsBlock, ← Bool.not_eq_true, List.isSuffixOf_iff_suffix]
    rintro ⟨leading, suffix⟩
    have lasts := congrArg List.getLast? suffix
    rw [content, chars, List.getLast?_append_cons, List.getLast?_append_cons, ← chars] at lasts
    exact apart lasts.symm
  exact leads_code legible goesOn plain

/-- A header that does not end a block itself leads one level deeper. -/
theorem leads_header {depth : Nat} {text : String} {parts : List Part}
    (legible : (header depth (.word text :: parts)).Legible) :
    Leads depth [header depth (.word text :: parts)] (depth + 1) :=
  leads_code legible (beq_false_of_ne (Part.head?_textAll legible.2)) (startsBlock_header depth _)

/-- A header between two blocks leads from the one to the other. -/
theorem leads_between {depth : Nat} {parts : List Part}
    (legible : (header depth (.mark "\x7d" :: parts)).Legible) :
    Leads (depth + 1) [header depth (.mark "\x7d" :: parts)] (depth + 1) := by
  have ended : ((Part.textAll (.mark "\x7d" :: parts ++ [.gap, .mark "\x7b"])).toList.head? ==
      some '\x7d') = true := by
    simp [Part.textAll, Part.text]
  exact leads_code legible ended (startsBlock_header depth _)

/-- The row that ends a block leads one level up, and it stands at the depth to which it leads. -/
theorem leads_close (depth : Nat) : Leads (depth + 1) [close depth] depth := by
  have alone : startsBlock (close depth).content = false := by
    rw [startsBlock, ← Bool.not_eq_true, List.isSuffixOf_iff_suffix]
    rintro ⟨leading, suffix⟩
    have lasts := congrArg List.getLast? suffix
    simp [close, content, Part.textAll, Part.text] at lasts
  have ended : ((Part.textAll [.mark "\x7d"]).toList.head? == some '\x7d') = true := by decide
  exact leads_code (close_legible depth _ (List.mem_singleton_self _)) ended alone

/-- A blank row leads nowhere else. It has no tabs, and it does not need them. -/
theorem leads_blank (depth : Nat) : Leads depth [blank] depth :=
  leads_singleton rfl

/-- A block between its header and its end leads back to the depth of the header if the rows inside
    lead back to theirs. -/
theorem leads_block {depth : Nat} {text : String} {parts : List Part} {rows : List Row}
    (legible : (header depth (.word text :: parts)).Legible)
    (inside : Leads (depth + 1) rows (depth + 1)) :
    Leads depth (header depth (.word text :: parts) :: (rows ++ [close depth])) depth :=
  (leads_header legible).append (inside.append (leads_close depth))

end Row

end Go

open Go Go.Part Go.Row

/-! ## Statements -/

/-- An expression ends with a word, the operand on its right or the one it consists of. -/
theorem expression_endsFinal (expression : Expression) : EndsFinal expression.parts := by
  obtain ⟨left, _ | ⟨operator, right⟩⟩ := expression
  · exact endsFinal_word _
  · exact (endsFinal_word _).after [left.asWord, .gap, operator.asMark, .gap]

/-- A value ends with a word if it is a leaf, and with a closing bracket if it is a call. -/
theorem value_endsFinal (value : Value) : EndsFinal value.parts := by
  cases value with
  | terminal token =>
      rw [Value.parts]
      exact endsFinal_word _
  | call callee arguments =>
      rw [Value.parts]
      have bracket : EndsFinal [.mark ")"] := ⟨[], .mark ")", rfl, rfl⟩
      exact bracket.after (callee.asWord :: .mark "(" :: separated (Value.partsAll arguments))

/-- Statements lead back to their depth if each of them does, by induction on the list. -/
theorem rowsAll_leads {statements : List Statement} {depth : Nat}
    (each : ∀ statement ∈ statements, Leads depth (statement.rows depth) depth) :
    Leads depth (Statement.rowsAll depth statements) depth := by
  induction statements with
  | nil =>
      rw [Statement.rowsAll]
      exact leads_nil depth
  | cons statement statements ih =>
      rw [List.forall_mem_cons] at each
      rw [Statement.rowsAll]
      exact each.1.append (ih each.2)

/-- The rows of a block lead back to their depth if those of each statement in it do. -/
theorem body_leads {body : Block Statement} {depth : Nat}
    (each : ∀ statement ∈ body.statements, Leads depth (statement.rows depth) depth) :
    Leads depth (body.rows depth) depth := by
  rw [Block.rows_eq]
  exact rowsAll_leads each

/-- The later branches of a chain lead from the end of one block to the end of another. -/
theorem branches_lead {branches : List (Branch Statement)} {depth : Nat}
    (legible : AllLegible (Branch.rowsAll depth elseIf branches))
    (inside : ∀ branch ∈ branches, Leads (depth + 1) (branch.body.rows (depth + 1)) (depth + 1)) :
    Leads (depth + 1) (Branch.rowsAll depth elseIf branches) (depth + 1) := by
  induction branches with
  | nil =>
      rw [Branch.rowsAll]
      exact leads_nil (depth + 1)
  | cons branch branches ih =>
      rw [Branch.rowsAll] at legible ⊢
      obtain ⟨here, later⟩ := List.forall_mem_cons.mp legible
      rw [List.forall_mem_cons] at inside
      exact (leads_between here).append
        (inside.1.append (ih (List.forall_mem_append.mp later).2 inside.2))

/-- The branches of a chain lead from its depth to the end of the block of the last one. -/
theorem chain_leads {first : Branch Statement} {branches : List (Branch Statement)} {depth : Nat}
    (legible : AllLegible (Branch.rowsAll depth [.word "if"] (first :: branches)))
    (inside : ∀ branch ∈ first :: branches,
      Leads (depth + 1) (branch.body.rows (depth + 1)) (depth + 1)) :
    Leads depth (Branch.rowsAll depth [.word "if"] (first :: branches)) (depth + 1) := by
  rw [Branch.rowsAll] at legible ⊢
  obtain ⟨here, later⟩ := List.forall_mem_cons.mp legible
  rw [List.forall_mem_cons] at inside
  exact (leads_header here).append
    (inside.1.append (branches_lead (List.forall_mem_append.mp later).2 inside.2))

/-- The rows of a statement lead from its depth back to it. -/
theorem statement_leads {statement : Statement} (wellFormed : statement.WellFormed)
    (depth : Nat) : Leads depth (statement.rows depth) depth := by
  have legible := statement_legible wellFormed depth
  induction wellFormed generalizing depth with
  | forRange keyword counter start stop body _ _ _ _ _ wellFormed ih =>
      have inside := body_leads fun statement member =>
        ih statement member (depth + 1) (statement_legible (wellFormed statement member) _)
      rw [Statement.rows] at legible ⊢
      exact leads_block (List.forall_mem_cons.mp legible).1 inside
  | whileLoop keyword condition body _ _ _ wellFormed ih =>
      have inside := body_leads fun statement member =>
        ih statement member (depth + 1) (statement_legible (wellFormed statement member) _)
      rw [Statement.rows] at legible ⊢
      exact leads_block (List.forall_mem_cons.mp legible).1 inside
  | ifChain first branches otherwise _ _ _ _ wellFormed _ otherwiseWellFormed ih otherwiseIh =>
      have inside : ∀ branch ∈ first :: branches,
          Leads (depth + 1) (branch.body.rows (depth + 1)) (depth + 1) := fun branch isBranch =>
        body_leads fun statement member => ih branch isBranch statement member (depth + 1)
          (statement_legible (wellFormed branch isBranch statement member) _)
      cases otherwise with
      | none =>
          rw [Statement.rows] at legible ⊢
          exact (chain_leads (List.forall_mem_append.mp legible).1 inside).append
            (leads_close depth)
      | some body =>
          have last := body_leads fun statement member =>
            otherwiseIh body rfl statement member (depth + 1)
              (statement_legible (otherwiseWellFormed body rfl statement member) _)
          rw [Statement.rows] at legible ⊢
          obtain ⟨taken, untaken⟩ := List.forall_mem_append.mp legible
          exact (chain_leads taken inside).append
            ((leads_between (List.forall_mem_cons.mp untaken).1).append
              (last.append (leads_close depth)))
  | declaration name type value =>
      rw [Statement.rows] at legible ⊢
      exact leads_single (List.forall_mem_singleton.mp legible) 
        ((value_endsFinal value).after [.word "var", .gap, name.asWord, .gap, type.asWord, .gap,
          .mark "=", .gap])
  | manipulation target value =>
      rw [Statement.rows] at legible ⊢
      exact leads_single (List.forall_mem_singleton.mp legible)
        ((expression_endsFinal value).after [target.asWord, .gap, .mark "=", .gap])
  | call callee arguments =>
      have final := value_endsFinal (.call callee arguments)
      rw [Statement.rows] at legible ⊢
      rw [Value.parts] at legible final ⊢
      exact leads_single (List.forall_mem_singleton.mp legible) final
  | returnValue keyword value =>
      rw [Statement.rows] at legible ⊢
      exact leads_single (List.forall_mem_singleton.mp legible)
        ((endsFinal_word _).after [.word "return", .gap])
  | hoisted index line =>
      rw [Statement.rows]
      exact leads_blank depth

/-! ## Functions and programs -/

/-- A function leads from the left margin back to it, its header with a body under it and a closing
    brace at the margin. -/
theorem definition_leads {definition : Definition} (wellFormed : definition.WellFormed) :
    Leads 0 definition.rows 0 := by
  have legible := definition_legible wellFormed
  have inside := body_leads fun statement member =>
    statement_leads (wellFormed.body statement member) 1
  rw [Definition.rows] at legible ⊢
  exact leads_block (List.forall_mem_cons.mp legible).1 inside

/-- All functions together lead from the left margin back to it, each after a blank row, by
    induction on the list. -/
theorem definitions_lead {definitions : List Definition}
    (wellFormed : ∀ definition ∈ definitions, definition.WellFormed) :
    Leads 0 (Definition.rowsAll definitions) 0 := by
  induction definitions with
  | nil => exact leads_nil 0
  | cons definition definitions ih =>
      rw [List.forall_mem_cons] at wellFormed
      exact (leads_blank 0).append
        ((definition_leads wellFormed.1).append (ih wellFormed.2))

/-- The rows of a program lead from the outermost depth back to it. -/
theorem program_leads {program : Program} (wellFormed : program.WellFormed) :
    Leads 0 program.rows 0 := by
  have legible := program_legible wellFormed
  have inside := rowsAll_leads fun statement member =>
    statement_leads (wellFormed.body statement member) 1
  rw [Program.rows] at legible ⊢
  obtain ⟨package, rest⟩ := List.forall_mem_cons.mp legible
  obtain ⟨-, main⟩ := List.forall_mem_append.mp rest
  have named : Leads 0 [.code 0 [.word "package", .gap, .word "main"]] 0 :=
    leads_single package ((endsFinal_word "main").after [.word "package", .gap])
  exact named.append ((definitions_lead wellFormed.functions).append
    ((leads_blank 0).append (leads_block (List.forall_mem_cons.mp
      (List.forall_mem_cons.mp main).2).1 inside)))

/-! ## Blank lines -/

/-- The blank rows among rows. -/
def blanks (rows : List Row) : Nat :=
  rows.count .blank

mutual

/-- The rows of a statement are blank where a placeholder stands, and nowhere else. -/
theorem statement_blanks (depth level : Nat) : ∀ statement : Statement,
    blanks (statement.rows depth) = (placeholdersOf (statement.outline level)).length
  | .declaration .. | .manipulation .. | .call .. | .returnValue .. => by
      simp [Statement.rows, Statement.outline, blanks, placeholdersOf, Statement.placeholder?]
  | .hoisted .. => by
      simp [Statement.rows, Statement.outline, blanks, placeholdersOf, Statement.placeholder?]
  | .forRange _ _ _ _ body => by
      have inside := block_blanks (depth + 1) (level + 1) body
      rw [Statement.outline, placeholdersOf_cons rfl, ← inside, Statement.rows]
      simp [blanks, Row.header, Row.close]
  | .whileLoop _ _ body => by
      have inside := block_blanks (depth + 1) (level + 1) body
      rw [Statement.outline, placeholdersOf_cons rfl, ← inside, Statement.rows]
      simp [blanks, Row.header, Row.close]
  | .ifChain branches none => by
      have inside := branches_blanks depth (level + 1) [.word "if"] branches
      rw [Statement.outline, placeholdersOf_cons rfl, placeholdersOf_append, List.length_append,
        ← inside, Statement.rows]
      simp [blanks, Row.close, placeholdersOf]
  | .ifChain branches (some body) => by
      have inside := branches_blanks depth (level + 1) [.word "if"] branches
      have last := block_blanks (depth + 1) (level + 1) body
      rw [Statement.outline, placeholdersOf_cons rfl, placeholdersOf_append, List.length_append,
        ← inside, ← last, Statement.rows]
      simp [blanks, Row.header, Row.close]

/-- There is one blank row for each placeholder in a block, wherever it stands. The recursion is on
    the block, its branches and its statements together. -/
theorem block_blanks (depth level : Nat) : ∀ body : Block Statement,
    blanks (body.rows depth) = (placeholdersOf (body.outline level)).length
  | ⟨_, statements⟩ => by
      rw [Block.rows, Block.outline]
      exact statements_blanks depth level statements

/-- There is one blank row for each placeholder in the blocks of some branches. -/
theorem branches_blanks (depth level : Nat) (opening : List Part) :
    ∀ branches : List (Branch Statement), blanks (Branch.rowsAll depth opening branches) =
      (placeholdersOf (Branch.outlineAll level branches)).length
  | [] => by simp [Branch.rowsAll, Branch.outlineAll, blanks, placeholdersOf]
  | ⟨_, _, body⟩ :: branches => by
      have inside := block_blanks (depth + 1) level body
      have later := branches_blanks depth level elseIf branches
      rw [Branch.outlineAll, placeholdersOf_append, List.length_append, ← inside, ← later,
        Branch.rowsAll]
      simp [blanks, Row.header]

/-- There is one blank row for each placeholder in some statements: placeholders are written as
    blank rows, and nothing else of a body is. -/
theorem statements_blanks (depth level : Nat) : ∀ statements : List Statement,
    blanks (Statement.rowsAll depth statements) =
      (placeholdersOf (Statement.outlineAll level statements)).length
  | [] => by simp [Statement.rowsAll, Statement.outlineAll, blanks, placeholdersOf]
  | statement :: statements => by
      have first := statement_blanks depth level statement
      have later := statements_blanks depth level statements
      rw [Statement.outlineAll, placeholdersOf_append, List.length_append, ← first, ← later,
        Statement.rowsAll]
      simp [blanks]

end

/-- A blank row stands before each function, and where the placeholders in its body are. -/
theorem definitions_blanks (definitions : List Definition) :
    blanks (Definition.rowsAll definitions) = definitions.length + (placeholdersOf
      (definitions.flatMap fun definition => definition.body.outline 1)).length := by
  induction definitions with
  | nil => rfl
  | cons definition definitions ih =>
      have inside := block_blanks 1 1 definition.body
      rw [List.flatMap_cons, placeholdersOf_append, List.length_append, ← inside,
        Definition.rowsAll, Definition.rows]
      simp only [blanks, Row.header, Row.close, List.count_cons, List.count_append,
        List.length_cons] at ih ⊢
      simp
      omega

/-- Each function has a blank row before it and one at its placeholder. The last one stands
    before `main`. -/
theorem program_blanks {program : Program} (hoisted : program.Hoisted) :
    blanks program.rows = 2 * program.functions.length + 1 := by
  have placeholders : program.placeholders.length = program.functions.length := by
    simpa using hoisted.once.length_eq
  have functions := definitions_blanks program.functions
  have body := statements_blanks 1 0 program.body
  rw [Program.placeholders, Program.outline, placeholdersOf_append, List.length_append,
    ← body] at placeholders
  rw [Program.rows]
  simp [blanks, Row.header, Row.close] at functions placeholders ⊢
  omega

/-! ## Sources -/

/-- Legible rows are the lines of their text, and blank rows its blank lines. -/
theorem endedLines_rows {rows : List Row} (legible : AllLegible rows) :
    endedLines (Line.renderAll (rows.map Row.line)) = rows.map Row.content := by
  rw [endedLines, Row.splitOn_renderAll legible, List.dropLast_concat]

/-- The empty lines are the blank rows. Any other row has a part that is not empty. -/
theorem count_nil_content {rows : List Row} (legible : AllLegible rows) :
    (rows.map Row.content).count [] = blanks rows := by
  have blank {row : Row} (legible : row.Legible) : row.content = [] ↔ row = .blank :=
    ⟨fun empty => Row.content_inj legible trivial empty, fun isBlank => isBlank ▸ rfl⟩
  rw [blanks, List.count, List.countP_map, List.count]
  refine List.countP_congr fun row member => ?_
  simpa using blank (legible row member)

/-- Of every source that has a program, the Go file ends with a line break. Scanned from the first
    line to the last, its depth starts at zero and comes back to zero; each line that is not blank
    has as many tabs as blocks are open around it. Every function accounts for two blank lines,
    and `main` for one. -/
theorem emit_balanced {source : List UInt8} {program : Program}
    (isParsed : (parsed source).outcome = .ok program) :
    ∃ text, Go.emit program = .ok text ∧ text.toList.getLast? = some '\n' ∧
      (endedLines text).foldlM depthAfter? 0 = some 0 ∧
      (endedLines text).count [] = 2 * program.functions.length + 1 := by
  obtain ⟨tokens, layout, -, -, derived⟩ := (parsed_ok_iff source program).mp isParsed
  have wellFormed := parsed_wellFormed isParsed
  have legible := program_legible wellFormed
  refine ⟨_, emit_rows derived, ?_, ?_, ?_⟩
  · obtain ⟨rows, last, split⟩ : ∃ rows last, program.rows = rows ++ [last] :=
      (List.eq_nil_or_concat' program.rows).resolve_left (by simp [Program.rows])
    rw [Row.renderAll_eq, split]
    simp
  · rw [endedLines_rows legible]
    exact program_leads wellFormed
  · rw [endedLines_rows legible, count_nil_content legible]
    exact program_blanks (program_hoisted derived)

set_option maxRecDepth 4000 in
/-- A chain in a loop, with braces in a literal in one branch and a function in the other. -/
theorem emit_balanced_nested :
    let source := Utf8.encode ("import GoType\nwhile n > 0:\n    if n == 1:\n" ++
      "        print(\"\x7d \x7b\")\n    else:\n        def f():\n            print(1)\n")
    let text := "package main\n\nfunc f() \x7b\n\tprintln(1)\n\x7d\n\nfunc main() \x7b\n" ++
      "\tfor n > 0 \x7b\n\t\tif n == 1 \x7b\n\t\t\tprintln(\"\x7d \x7b\")\n" ++
      "\t\t\x7d else \x7b\n\n\t\t\x7d\n\t\x7d\n\x7d\n"
    ∃ program, (parsed source).outcome = .ok program ∧ Go.emit program = .ok text ∧
      (endedLines text).foldlM depthAfter? 0 = some 0 ∧ (endedLines text).count [] = 3 := by
  intro source text
  let word (kind : Kind) (lexeme : String) (line : Nat) : Token := ⟨kind, lexeme, line⟩
  let name (line : Nat) : Token := word .identifier "n" line
  let number (lexeme : String) (line : Nat) : Token := word .intLiteral lexeme line
  let braces : Token := word .stringLiteral "\"\x7d \x7b\"" 4
  let indents (count line : Nat) : List Token := List.replicate count (.indent line)
  let opens (line : Nat) : List Token := [word .colon ":" line, .newline line]
  let print (argument : Token) : List Token :=
    [word .print "print" argument.line, word .leftParen "(" argument.line, argument,
      word .rightParen ")" argument.line, .newline argument.line]
  let imports : List Token := [word .importWord "import" 1, word .identifier "GoType" 1, .newline 1]
  let loop : List Token := [word .whileWord "while" 2, name 2, word .greater ">" 2, number "0" 2]
  let test : List Token := [word .ifWord "if" 3, name 3, word .equal "==" 3, number "1" 3]
  let head : List Token := [word .defWord "def" 6, word .identifier "f" 6,
    word .leftParen "(" 6, word .rightParen ")" 6]
  let tokens : List Token :=
    imports ++ loop ++ opens 2 ++ indents 1 3 ++ test ++ opens 3 ++ indents 2 4 ++ print braces ++
      indents 1 5 ++ [word .elseWord "else" 5] ++ opens 5 ++ indents 2 6 ++ head ++ opens 6 ++
      indents 3 7 ++ print (number "1" 7)
  let layout : Layout :=
    ⟨imports ++ loop ++ opens 2 ++ test ++ opens 3 ++ print braces ++
      [.closeBlock 5, word .elseWord "else" 5] ++ opens 5 ++ head ++ opens 6 ++
      print (number "1" 7) ++ [.closeBlock 7, .closeBlock 7, .closeBlock 7, .newline 7], 3, 4⟩
  let call (argument : Token) : Statement :=
    .call (word .print "print" argument.line) [.terminal argument]
  let compared (comparator right : Token) : Comparison :=
    ⟨⟨name right.line, none⟩, some (comparator, ⟨right, none⟩)⟩
  let chain : Statement :=
    .ifChain
      [⟨word .ifWord "if" 3, compared (word .equal "==" 3) (number "1" 3), ⟨3, [call braces]⟩⟩]
      (some ⟨5, [.hoisted 0 6]⟩)
  let program : Program :=
    ⟨⟨word .identifier "GoType" 1, none, 1⟩,
      [.whileLoop (word .whileWord "while" 2) (compared (word .greater ">" 2) (number "0" 2))
        ⟨2, [chain]⟩],
      [⟨word .defWord "def" 6, word .identifier "f" 6, [], none, ⟨6, [call (number "1" 7)]⟩⟩]⟩
  have scanned : Token.scan source = .ok tokens := by
    dsimp only [source, tokens, imports, loop, test, head, opens, print, braces, number, name,
      indents, word]
    cbv
  have laid : Layout.ofTokens tokens = .ok layout := by
    dsimp only [tokens, layout, imports, loop, test, head, opens, print, braces, number, name,
      indents, word]
    cbv
  have isProgram : (Program.parse layout.tokens).outcome = .ok program := by
    dsimp only [layout, program, chain, compared, call, imports, loop, test, head, opens, print,
      braces, number, name, word]
    cbv
  have isText : Go.emit program = .ok text := by
    dsimp only [program, chain, compared, call, braces, number, name, word, text]
    cbv
  have isParsed := parsed_of_phases scanned laid isProgram
  obtain ⟨other, emitted, -, balanced, blank⟩ := emit_balanced isParsed
  obtain rfl : text = other := Except.ok.inj (isText.symm.trans emitted)
  exact ⟨program, isParsed, emitted, balanced, blank⟩

end Offside
