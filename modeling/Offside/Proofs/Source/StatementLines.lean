import Offside.Proofs.Layout.Alignment
import Offside.Proofs.Source.Preorder

/-!
# Lines of statements

A line of a source starts at most one statement. Layout puts the first token of a line
after a line break or a block end, and every other token of the line after a token of the
same line. The grammar starts a statement only where a line break or a block end was, so
the statements of a program, in the order of the source, are among the first tokens of its
lines, and lines are numbered upwards.
-/

namespace Offside

open Grammar

instance StartsStatement.decidable : DecidablePred StartsStatement :=
  fun token => inferInstanceAs (Decidable (token.kind ∈ _))

/-! ## First tokens of statements -/

/-- The lines of the heads that start a statement. -/
def starts (cursor : Cursor) (tokens : List Token) : List Nat :=
  ((heads cursor tokens).filter fun head => StartsStatement head.2).map fun head => head.2.line

/-- The starts in two stretches of tokens are those of the first and then those of the second, met
    with the cursor that the first one leaves. -/
theorem starts_append (cursor : Cursor) (first second : List Token) :
    starts cursor (first ++ second) = starts cursor first ++ starts (cursor.run first) second := by
  rw [starts, heads_append, List.filter_append, List.map_append]
  rfl

/-- The starts in a list are that of its first token, if it is one, and those after it. -/
theorem starts_cons (cursor : Cursor) (token : Token) (tokens : List Token) :
    starts cursor (token :: tokens) =
      starts cursor [token] ++ starts (cursor.step token) tokens :=
  starts_append cursor [token] tokens

/-- Where a statement may start, a token that can start one does. -/
theorem starts_opener {cursor : Cursor} (fresh : cursor.fresh = true) {token : Token}
    (opens : StartsStatement token) : starts cursor [token] = [token.line] := by
  simp [starts, heads, fresh, opens, opens.inline]

/-- A token that cannot start a statement is no start, wherever it stands. -/
theorem starts_other (cursor : Cursor) {token : Token} (other : ¬ StartsStatement token) :
    starts cursor [token] = [] := by
  rw [starts, heads]
  split <;> simp [heads, other]

/-- Only the first token of a line can start a statement. The cursor is not fresh before any other,
    so no other one is a head. -/
theorem starts_line (cursor : Cursor) {first : Token} {rest : List Token}
    (isInline : Inline (first :: rest)) (tokens : List Token) :
    starts cursor (first :: (rest ++ tokens)) =
      starts cursor [first] ++ starts (cursor.run (first :: rest)) tokens := by
  have inside : (cursor.step first).fresh = false := by
    rw [cursor.step_inline (isInline first List.mem_cons_self)]
  have noStart : starts (cursor.step first) rest = [] := by
    rw [starts, (heads_inline (fun token member => isInline token (List.mem_cons_of_mem _ member))
      inside).1]
    rfl
  rw [starts_cons, starts_append, noStart, List.nil_append]
  rfl

/-- After a line break or a block end a statement may start, whatever the cursor was before it. -/
theorem Cursor.fresh_step (cursor : Cursor) {token : Token} (separates : ¬ token.Inline) :
    (cursor.step token).fresh = true := by
  unfold step
  split
  · rfl
  · rfl
  · rename_i notBreak notClose
    exact absurd ⟨notBreak, notClose⟩ separates

/-- Line breaks start nothing, and after them a statement may start. Without any, one may start
    where it could before, by induction on them. -/
theorem starts_gap {gap : List Token} (breaks : Breaks gap) (cursor : Cursor) :
    starts cursor gap = [] ∧
      (cursor.fresh = true ∨ gap ≠ [] → (cursor.run gap).fresh = true) := by
  induction gap generalizing cursor with
  | nil => exact ⟨rfl, fun reached => reached.resolve_right fun absent => absent rfl⟩
  | cons token gap ih =>
      have isBreak := breaks token List.mem_cons_self
      have fresh := cursor.fresh_step fun isInline : token.Inline => isInline.1 isBreak
      have later := ih (fun other member => breaks other (List.mem_cons_of_mem _ member))
        (cursor.step token)
      rw [starts_cons, starts_other cursor (by simp [StartsStatement, isBreak]), later.1]
      exact ⟨rfl, fun _ => later.2 (.inl fresh)⟩

/-! ## Phrases -/

/-- The lines of the statements of an outline, bodies of functions included. -/
def linesOf (bodies : List (List Statement)) (outline : List (Nat × Statement)) : List Nat :=
  (inPlace bodies outline).map Statement.line

/-- The lines of outlines in a row are those of the first and then those of the second. -/
theorem linesOf_append (bodies : List (List Statement)) (first second : List (Nat × Statement)) :
    linesOf bodies (first ++ second) = linesOf bodies first ++ linesOf bodies second := by
  rw [linesOf, inPlace_append, List.map_append]
  rfl

/-- A statement that is no placeholder gives its own line, and the entries after it give theirs. -/
theorem linesOf_cons {depth : Nat} {statement : Statement}
    (noDefinition : statement.placeholder? = none) (bodies : List (List Statement))
    (inside : List (Nat × Statement)) :
    linesOf bodies ((depth, statement) :: inside) = statement.line :: linesOf bodies inside := by
  rw [linesOf, inPlace_cons noDefinition]
  rfl

/-- Where a phrase can stand. A block is on the line of its header, and statements may come
    after a line that ends with them. -/
def Cursor.Admits (cursor : Cursor) (tokens : List Token) : Phrase → Prop
  | .block _ => True
  | .statements _ => cursor.fresh = true ∨ LineEnds tokens
  | _ => cursor.fresh = true

/-- The tokens of a phrase have their starts where its statements stand, in this order, and
    what ends with a block leaves a place for another statement. -/
def PhraseStarts (bodies : List (List Statement)) (tokens : List Token) (phrase : Phrase) : Prop :=
  ∀ cursor : Cursor, cursor.Admits tokens phrase →
    (∀ depth, starts cursor tokens = linesOf bodies (phrase.outline depth)) ∧
      ((∀ list, phrase ≠ .statements list) → (cursor.run tokens).fresh = true)

variable {bodies : List (List Statement)}

/-- A block has the starts of its statements. The colon and the line break before them start
    nothing, and neither does the end of the block. -/
theorem block_starts {colon newline close : Token} {tokens : List Token} {line : Nat}
    {statements : List Statement} (isColon : colon.kind = .colon)
    (isBreak : newline.kind = .newline) (isClose : close.kind = .closeBlock)
    (inside : PhraseStarts bodies tokens (.statements statements)) :
    PhraseStarts bodies (colon :: newline :: (tokens ++ [close])) (.block ⟨line, statements⟩) := by
  intro cursor _
  have fresh := (cursor.step colon).fresh_step
    fun isInline : newline.Inline => isInline.1 isBreak
  have closes (cursor : Cursor) := cursor.fresh_step
    fun isInline : close.Inline => isInline.2 isClose
  constructor
  · intro depth
    rw [starts_cons, starts_other cursor (by simp [StartsStatement, isColon]), starts_cons,
      starts_other _ (by simp [StartsStatement, isBreak]), starts_append,
      starts_other _ (by simp [StartsStatement, isClose]), (inside _ (.inl fresh)).1 depth]
    simp [Phrase.outline, Block.outline]
  · intro _
    rw [Cursor.run_cons, Cursor.run_cons, Cursor.run_append]
    exact closes _

/-- A header with a block: the statement that starts with the header, if one does, and those
    in the block. -/
theorem header_starts {keyword : Token} {rest tokens : List Token} {body : Block Statement}
    (isInline : Inline (keyword :: rest)) (block : PhraseStarts bodies tokens (.block body))
    (cursor : Cursor) :
    (∀ depth, starts cursor (keyword :: (rest ++ tokens)) =
        starts cursor [keyword] ++ linesOf bodies (body.outline depth)) ∧
      (cursor.run (keyword :: (rest ++ tokens))).fresh = true := by
  obtain ⟨inside, fresh⟩ := block (cursor.run (keyword :: rest)) trivial
  constructor
  · intro depth
    rw [starts_line cursor isInline, inside depth]
    rfl
  · rw [← List.cons_append, Cursor.run_append]
    exact fresh (by simp)

/-- The starts of a branch are those of its keyword, which is one for `if` only, and of its block.
    Those of what comes after it in the chain follow. -/
theorem branch_starts {keyword : Token} {condition tokens later : List Token}
    {comparison : Comparison} {body : Block Statement} {branches : List (Branch Statement)}
    {otherwise : Option (Block Statement)} (isKeyword : keyword.Inline)
    (compared : ComparisonOf condition comparison)
    (block : PhraseStarts bodies tokens (.block body))
    (continued : PhraseStarts bodies later (.continuation branches otherwise))
    (cursor : Cursor) :
    (∀ depth, starts cursor (keyword :: (condition ++ (tokens ++ later))) =
        starts cursor [keyword] ++
          linesOf bodies (Phrase.outline depth
            (.continuation (⟨keyword, comparison, body⟩ :: branches) otherwise))) ∧
      (cursor.run (keyword :: (condition ++ (tokens ++ later)))).fresh = true := by
  have isInline := inline_cons isKeyword (comparison_inline compared)
  obtain ⟨inside, fresh⟩ := header_starts isInline block cursor
  obtain ⟨onward, laterFresh⟩ := continued _ fresh
  have split : keyword :: (condition ++ (tokens ++ later)) =
      (keyword :: (condition ++ tokens)) ++ later := by simp
  rw [split]
  constructor
  · intro depth
    have outline : Phrase.outline depth
        (.continuation (⟨keyword, comparison, body⟩ :: branches) otherwise) =
          body.outline depth ++ Phrase.outline depth (.continuation branches otherwise) := by
      simp [Phrase.outline, Branch.outlineAll, List.append_assoc]
    rw [starts_append, inside depth, onward depth, outline, linesOf_append, List.append_assoc]
  · rw [Cursor.run_append]
    exact laterFresh (by simp)

/-- A statement that is a header with a block has its keyword for a start, and after it the starts
    of its block. -/
theorem loop_starts {keyword : Token} {rest tokens : List Token} {statement : Statement}
    {body : Block Statement} (opens : StartsStatement keyword)
    (isInline : Inline rest) (sameLine : statement.line = keyword.line)
    (noDefinition : statement.placeholder? = none)
    (outline : ∀ depth, statement.outline depth = (depth, statement) :: body.outline (depth + 1))
    (block : PhraseStarts bodies tokens (.block body)) :
    PhraseStarts bodies (keyword :: (rest ++ tokens)) (.compound statement) := by
  intro cursor fresh
  obtain ⟨inside, after⟩ := header_starts (inline_cons opens.inline isInline) block cursor
  refine ⟨fun depth => ?_, fun _ => after⟩
  rw [inside (depth + 1), starts_opener fresh opens, Phrase.outline, outline,
    linesOf_cons noDefinition, sameLine]
  rfl

/-- A definition has its keyword for a start, where its placeholder is listed, and then the starts
    of its body, which is listed after the placeholder. -/
theorem definition_starts {keyword : Token} {rest tokens : List Token} {index : Nat}
    {body : Block Statement} (isDef : keyword.kind = .defWord) (isInline : Inline rest)
    (unfolded : bodies[index]? = some (inPlace bodies (body.outline 1)))
    (block : PhraseStarts bodies tokens (.block body)) :
    PhraseStarts bodies (keyword :: (rest ++ tokens))
      (.compound (.hoisted index keyword.line)) := by
  intro cursor fresh
  have opens : StartsStatement keyword := by simp [StartsStatement, isDef]
  obtain ⟨inside, after⟩ := header_starts (inline_cons opens.inline isInline) block cursor
  refine ⟨fun depth => ?_, fun _ => after⟩
  have placed : linesOf bodies (Phrase.outline depth (.compound (.hoisted index keyword.line))) =
      keyword.line :: linesOf bodies (body.outline 1) := by
    simp [Phrase.outline, Statement.outline, linesOf, inPlace, Statement.placeholder?, bodyOf,
      unfolded, Statement.line]
  rw [inside 1, starts_opener fresh opens, placed]
  rfl

/-- A statement in a list, after line breaks, and the statements after it. -/
theorem statements_start {gap tokens later : List Token} {statement : Statement}
    {statements : List Statement} (breaks : Breaks gap)
    (front : ∃ token rest, tokens = token :: rest ∧ StartsStatement token)
    (here : ∀ cursor : Cursor, cursor.fresh = true →
      (∀ depth, starts cursor tokens = linesOf bodies (statement.outline depth)) ∧
        ((cursor.run tokens).fresh = true ∨ LineEnds later))
    (continued : PhraseStarts bodies later (.statements statements)) :
    PhraseStarts bodies (gap ++ (tokens ++ later)) (.statements (statement :: statements)) := by
  intro cursor ready
  obtain ⟨nothing, reached⟩ := starts_gap breaks cursor
  have fresh : (cursor.run gap).fresh = true := by
    refine reached (ready.imp_right fun lineEnds => ?_)
    rintro rfl
    obtain ⟨token, rest, rfl, opens⟩ := front
    exact opens.inline.1 (lineEnds token rfl)
  obtain ⟨first, after⟩ := here _ fresh
  refine ⟨fun depth => ?_, fun noList => absurd rfl (noList _)⟩
  rw [starts_append, starts_append, nothing, first depth, (continued _ after).1 depth]
  simp [Phrase.outline, Statement.outlineAll, linesOf_append]

/-- A statement on one line has itself as its outline, and it is no placeholder. Only headers hold
    other statements. -/
theorem simple_outline {tokens : List Token} {statement : Statement}
    (derived : SimpleOf tokens statement) (depth : Nat) :
    statement.outline depth = [(depth, statement)] ∧ statement.placeholder? = none := by
  cases derived <;> exact ⟨rfl, rfl⟩

/-- A statement on one line has one start, its first token. The others are on the line with it and
    no head is met there. -/
theorem simple_starts {tokens : List Token} {statement : Statement}
    (derived : SimpleOf tokens statement) {cursor : Cursor} (fresh : cursor.fresh = true)
    (depth : Nat) : starts cursor tokens = linesOf bodies (statement.outline depth) := by
  obtain ⟨isInline, -⟩ := simple_plain derived
  obtain ⟨token, rest, rfl, opens, sameLine, -⟩ := simple_line derived
  obtain ⟨outline, noDefinition⟩ := simple_outline derived depth
  have whole := starts_line cursor isInline []
  rw [List.append_nil] at whole
  rw [whole, starts_opener fresh opens, outline, linesOf_cons noDefinition, sameLine]
  rfl

/-- The outline of a chain is the chain itself and then the outlines of all of its blocks, one level
    deeper. -/
theorem outline_ifChain (depth : Nat) (branches : List (Branch Statement))
    (otherwise : Option (Block Statement)) :
    Phrase.outline depth (.compound (.ifChain branches otherwise)) =
      (depth, .ifChain branches otherwise) ::
        Phrase.outline (depth + 1) (.continuation branches otherwise) := by
  cases otherwise <;> simp [Phrase.outline, Statement.outline]

/-- The starts of a derived phrase are its statements, those in the bodies of its functions among
    them. The induction is on the derivation. -/
theorem derives_starts {functions : List Definition} {first : Nat} {tokens : List Token}
    {phrase : Phrase} {defined : List Definition} (derived : Derives first tokens phrase defined)
    (unfolded : ∀ (index : Nat) (definition : Definition), functions[index]? = some definition →
      bodies[index]? = some (inPlace bodies (definition.body.outline 1)))
    (located : Located functions first defined) : PhraseStarts bodies tokens phrase := by
  induction derived with
  | block first colon newline close tokens statements defined isColon isBreak isClose nonempty
      derived ih => exact block_starts isColon isBreak isClose (ih located)
  | chainEnd first =>
      exact fun cursor fresh =>
        ⟨fun depth => by simp [Phrase.outline, Branch.outlineAll, linesOf, inPlace, starts, heads],
          fun _ => fresh⟩
  | otherwise first gap keyword tokens body defined breaks isElse derived ih =>
      intro cursor fresh
      have isInline : Inline [keyword] := by simp [Inline, Token.Inline, isElse]
      obtain ⟨inside, after⟩ := header_starts isInline (ih located) (cursor.run gap)
      rw [List.nil_append] at inside after
      refine ⟨fun depth => ?_, fun _ => by rwa [Cursor.run_append]⟩
      rw [starts_append, (starts_gap breaks cursor).1, inside depth,
        starts_other _ (by simp [StartsStatement, isElse])]
      simp [Phrase.outline, Branch.outlineAll]
  | branch first gap keyword condition tokens later comparison body branches otherwise defined
      laterDefined breaks isElif compared derived continued ih laterIh =>
      intro cursor fresh
      obtain ⟨here, onward⟩ := located_append located
      obtain ⟨inside, after⟩ := branch_starts (inline_of_kind isElif (by decide) (by decide))
        compared (ih here) (laterIh onward) (cursor.run gap)
      refine ⟨fun depth => ?_, fun _ => by rwa [Cursor.run_append]⟩
      rw [starts_append, (starts_gap breaks cursor).1, inside depth,
        starts_other _ (by simp [StartsStatement, isElif])]
      rfl
  | forRange first keyword counter inside range left start comma stop right tokens body defined
      isFor isCounter isIn isRange opens startBound isComma stopBound closes derived ih =>
      have isInline :=
        rangeHeader_inline isCounter isIn isRange opens startBound isComma stopBound closes
      exact loop_starts (by simp [StartsStatement, isFor]) isInline rfl rfl
        (fun depth => by rw [Statement.outline]) (ih located)
  | whileLoop first keyword condition tokens comparison body defined isWhile compared derived ih =>
      exact loop_starts (by simp [StartsStatement, isWhile]) (comparison_inline compared) rfl rfl
        (fun depth => by rw [Statement.outline]) (ih located)
  | ifChain first keyword condition tokens later comparison body branches otherwise defined
      laterDefined isIf compared derived continued ih laterIh =>
      intro cursor fresh
      obtain ⟨here, onward⟩ := located_append located
      obtain ⟨inside, after⟩ := branch_starts (inline_of_kind isIf (by decide) (by decide))
        compared (ih here) (laterIh onward) cursor
      refine ⟨fun depth => ?_, fun _ => after⟩
      rw [inside (depth + 1), starts_opener fresh (by simp [StartsStatement, isIf]),
        outline_ifChain, linesOf_cons rfl]
      rfl
  | definition first keyword name left right inner resultTokens tokens parameters returns body
      defined isDef isName opens listed closes result derived ih =>
      obtain ⟨here, onward⟩ := located_append located
      have found := onward 0 (by simp)
      have isInline := definitionHeader_inline isName opens listed closes result
      have placed := unfolded _ _ (by simpa using found)
      have startsHere := definition_starts isDef isInline placed (ih here)
      simpa using startsHere
  | listEnd first gap breaks =>
      refine fun cursor _ => ⟨fun depth => ?_, fun noList => absurd rfl (noList _)⟩
      rw [(starts_gap breaks cursor).1]
      rfl
  | simple first gap tokens later statement statements defined breaks derived ends continued ih =>
      exact statements_start breaks (simple_front derived)
        (fun cursor fresh => ⟨simple_starts derived fresh, .inr ends⟩) (ih located)
  | compound first gap tokens later statement statements defined laterDefined breaks derived
      continued ih laterIh =>
      obtain ⟨here, onward⟩ := located_append located
      refine statements_start breaks (compound_front derived) (fun cursor fresh => ?_)
        (laterIh onward)
      obtain ⟨inside, after⟩ := ih here cursor fresh
      exact ⟨inside, .inl (after (by simp))⟩

/-! ## Lines of a source -/

/-- From one line to the next, the heads of a layout have greater numbers. -/
theorem heads_increase {lines : List Line} {number level : Nat} {layout : Layout}
    (numbered : Numbered number lines) (laidOut : Layout.ofLines level lines = .ok layout)
    {cursor : Cursor} (fresh : cursor.fresh = true) :
    ((heads cursor layout.tokens).map fun head => head.2.line).Pairwise (· < ·) ∧
      ∀ head ∈ heads cursor layout.tokens, number ≤ head.2.line := by
  induction lines generalizing number level layout cursor with
  | nil =>
      cases laidOut
      simp [heads]
  | cons line lines ih =>
      by_cases blank : line.content = []
      · obtain ⟨later, laidLater, -, same⟩ := blank_line numbered blank laidOut
        obtain ⟨increase, above⟩ := ih numbered.2.2.2 laidLater fresh
        rw [(same cursor fresh).1]
        exact ⟨increase, fun head member => Nat.le_of_succ_le (above head member)⟩
      · obtain ⟨later, first, ending, laidLater, -, -, isMember, -, isHeads, -⟩ :=
          content_line numbered blank laidOut fresh
        have here : first.line = number := (numbered.1 first isMember).2
        rw [isHeads, List.map_cons, List.pairwise_cons, List.forall_mem_map, List.forall_mem_cons]
        cases isEnding : line.ending with
        | none =>
            obtain rfl := numbered.2.2.1 isEnding
            cases laidLater
            simp [heads, here]
        | some token =>
            obtain ⟨increase, above⟩ := ih numbered.2.2.2 laidLater
              (show ((cursor.atLine level line).pastLine ending true).fresh = true from rfl)
            refine ⟨⟨fun head member => ?_, increase⟩, here.ge, fun head member => ?_⟩
            · exact here ▸ above head member
            · exact Nat.le_of_succ_le (above head member)

/-- The heads of a program are the import clause and after it, apart from those that
    continue a chain, the statements in preorder. -/
theorem program_starts {tokens : List Token} {program : Program}
    (derived : ProgramOf tokens program) :
    ∃ first others, heads .start tokens = (.start, first) :: others ∧
      first.line = program.importClause.line ∧
      (others.filter fun head => StartsStatement head.2).map (fun head => head.2.line) =
        program.preorder.map Statement.line := by
  have hoisted := program_hoisted derived
  cases derived with
  | program gap clauseTokens tokens clause body functions breaks imported ends derived =>
      obtain ⟨isInline, -⟩ := import_plain imported
      obtain ⟨first, rest, rfl, sameLine⟩ :
          ∃ first rest, clauseTokens = first :: rest ∧ first.line = clause.line := by
        cases imported with
        | whole => exact ⟨_, _, rfl, rfl⟩
        | part => exact ⟨_, _, rfl, rfl⟩
      obtain ⟨noHeads, same⟩ := heads_breaks breaks (show Cursor.start.fresh = true from rfl)
      obtain ⟨last, -, oneHead, -⟩ :=
        heads_line isInline (show Cursor.start.fresh = true from rfl)
      have located : Located functions 0 functions := by
        intro index _
        rw [Nat.zero_add]
      have startsAll := derives_starts derived
        (fun _ _ => hoisted.bodies_getElem?) located
        (Cursor.start.run (first :: rest)) (.inr ends)
      refine ⟨first, heads (Cursor.start.run (first :: rest)) tokens, ?_, sameLine, ?_⟩
      · rw [heads_append, heads_append, noHeads, same, oneHead]
        rfl
      · exact startsAll.1 0

/-- The statements of a program stand on different lines of the source: in preorder, with the
    body of a function after its placeholder, their lines increase. All of them come after
    the import clause. -/
theorem preorder_lines {source : List UInt8} {program : Program}
    (parses : (parsed source).outcome = .ok program) :
    program.preorder.Perm (program.outline.map Prod.snd) ∧
      (program.preorder.map Statement.line).Pairwise (· < ·) ∧
      ∀ statement ∈ program.preorder,
        program.importClause.line < statement.line ∧ statement.line ≠ 0 := by
  obtain ⟨tokens, laid, scanned, laidOut, derived⟩ := (parsed_ok_iff source program).mp parses
  obtain ⟨layout, laidLines, isLaid⟩ := ofTokens_inv laidOut
  obtain ⟨increase, -⟩ := heads_increase (numbered_scan scanned) laidLines
    (show Cursor.start.fresh = true from rfl)
  obtain ⟨first, others, isHeads, isImport, isPreorder⟩ := program_starts derived
  rw [isLaid, heads_append, heads_closingTokens, List.append_nil] at isHeads
  rw [isHeads, List.map_cons, List.pairwise_cons] at increase
  have among : List.Sublist (program.preorder.map Statement.line)
      (others.map fun head => head.2.line) :=
    isPreorder ▸ List.filter_sublist.map _
  refine ⟨(program_hoisted derived).preorder_perm, increase.2.sublist among, ?_⟩
  intro statement member
  have after := increase.1 _ (among.subset (List.mem_map_of_mem member))
  rw [isImport] at after
  exact ⟨after, Nat.ne_zero_of_lt after⟩

/-- A function inside another one. The outer one is numbered last and written first. -/
theorem preorder_lines_nested :
    let word (kind : Kind) (lexeme : String) (line : Nat) : Token := ⟨kind, lexeme, line⟩
    let name (lexeme : String) (line : Nat) : Token := word .identifier lexeme line
    let assignment (lexeme value : String) (line : Nat) : Statement :=
      .manipulation (name lexeme line) ⟨word .intLiteral value line, none⟩
    let source := Utf8.encode
      "import GoType\ndef f():\n    def g():\n        x = 1\n    y = 2\nz = 3"
    let program : Program :=
      ⟨⟨name "GoType" 1, none, 1⟩, [.hoisted 1 2, assignment "z" "3" 6],
        [⟨word .defWord "def" 3, name "g" 3, [], none, ⟨3, [assignment "x" "1" 4]⟩⟩,
          ⟨word .defWord "def" 2, name "f" 2, [], none,
            ⟨2, [.hoisted 0 3, assignment "y" "2" 5]⟩⟩]⟩
    (parsed source).outcome = .ok program ∧
      program.preorder = [.hoisted 1 2, .hoisted 0 3, assignment "x" "1" 4,
        assignment "y" "2" 5, assignment "z" "3" 6] ∧
      program.preorder.Perm (program.outline.map Prod.snd) ∧
      (program.preorder.map Statement.line).Pairwise (· < ·) ∧
      ∀ statement ∈ program.preorder,
        program.importClause.line < statement.line ∧ statement.line ≠ 0 := by
  intro word name assignment source program
  have parses : (parsed source).outcome = .ok program := by
    dsimp only [source, program, assignment, name, word]
    cbv
  exact ⟨parses, rfl, preorder_lines parses⟩

end Offside
