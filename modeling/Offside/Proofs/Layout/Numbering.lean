import Offside.Layout
import Offside.Proofs.Layout.Heads
import Offside.Token.Scan

/-!
# Numbered lines

The tokens of a source, cut into lines, have the number of their line, and a line
of the source is a line of tokens: nothing but its end is a line break. So the
indentation tokens with the number of a line are those of that line, and their
count is the level that layout goes by.
-/

namespace Offside

/-- How many indentation tokens stand on a line of the source. -/
def indentsOn (tokens : List Token) (number : Nat) : Nat :=
  tokens.countP fun token => token.kind == .indent && token.line == number

/-- The lines have numbers that start at `number`, and only the last one may lack its
    line break. -/
def Numbered (number : Nat) : List Line → Prop
  | [] => True
  | line :: lines =>
      (∀ token ∈ line.tokens, token.Inline ∧ token.line = number) ∧
        (∀ token ∈ line.ending, token.kind = .newline ∧ token.line = number) ∧
        (line.ending = none → lines = []) ∧ Numbered (number + 1) lines

/-! ## Scanning -/

/-- Two steps succeed exactly when both do, the second with what the first has given. -/
theorem except_bind_ok_iff {α β : Type} {first : Except Failure α} {next : α → Except Failure β}
    {value : β} :
    (first >>= next) = .ok value ↔ ∃ middle, first = .ok middle ∧ next middle = .ok value := by
  cases first with
  | ok middle => simp [bind, Except.bind]
  | error failure => simp [bind, Except.bind]

/-- No word of a source is a line break or a block end. The tables of words have neither kind. -/
theorem Kind.ofWord_inline (word : String) :
    Kind.ofWord word ≠ .newline ∧ Kind.ofWord word ≠ .closeBlock := by
  have among {table : List (String × Kind)} {kind : Kind} (found : table.lookup word = some kind) :
      kind ∈ table.map Prod.snd := by
    obtain ⟨before, after, rfl, _⟩ := List.lookup_eq_some_iff.mp found
    simp
  have listed : ∀ kind ∈ (Kind.keywords ++ Kind.valueWords).map Prod.snd,
      kind ≠ .newline ∧ kind ≠ .closeBlock := by decide
  have builtins : ∀ builtin ∈ Builtin.all,
      builtin.kind ≠ .newline ∧ builtin.kind ≠ .closeBlock := by decide
  unfold Kind.ofWord
  split
  · rename_i kind found
    exact listed kind (by rw [List.map_append]; exact List.mem_append_left _ (among found))
  · split
    · rename_i builtin found
      exact builtins builtin (List.mem_of_find?_eq_some found)
    · cases found : Kind.valueWords.lookup word with
      | none => simp
      | some kind =>
          exact listed kind (by rw [List.map_append]; exact List.mem_append_right _ (among found))

/-- No symbol of one character is a line break or a block end, so a symbol stands on its line. -/
theorem Kind.ofSymbol_inline (char : Char) :
    Kind.ofSymbol char ≠ .newline ∧ Kind.ofSymbol char ≠ .closeBlock := by
  unfold Kind.ofSymbol
  split <;> simp

/-- No operator of two characters is, either. So line breaks come from line ends alone, and block
    ends only from layout. -/
theorem Kind.ofPair?_inline {first second : Char} {kind : Kind}
    (isPair : Kind.ofPair? first second = some kind) : kind ≠ .newline ∧ kind ≠ .closeBlock := by
  unfold Kind.ofPair? at isPair
  split at isPair <;> cases isPair <;> decide

/-- A piece with a text is neither a line break nor a block end. -/
theorem Piece.front_inline {byte : UInt8} {rest : List UInt8} {kind : Kind}
    (isLexeme : (Piece.front byte rest).1 = .lexeme kind) :
    kind ≠ .newline ∧ kind ≠ .closeBlock := by
  simp only [Piece.front] at isLexeme
  -- One class of pieces after another, in the order in which they are tried.
  split at isLexeme
  · cases isLexeme
  split at isLexeme
  · cases isLexeme
  split at isLexeme
  · cases isLexeme
  split at isLexeme
  · cases isLexeme
  split at isLexeme
  · split at isLexeme
    · cases isLexeme
      decide
    · cases isLexeme
  split at isLexeme
  · split at isLexeme
    · cases isLexeme
      decide
    · cases isLexeme
  split at isLexeme
  · cases isLexeme
    exact Kind.ofWord_inline _
  · split at isLexeme
    · rename_i found
      cases isLexeme
      obtain ⟨next, _, isPair⟩ := Option.bind_eq_some_iff.mp found
      exact Kind.ofPair?_inline isPair
    · cases isLexeme
      exact Kind.ofSymbol_inline _

/-- A token with the number of the first line, put in front of it, leaves the lines numbered as they
    were. -/
theorem numbered_cons {token : Token} {rest : List Token} {number : Nat}
    (isInline : token.Inline) (sameLine : token.line = number)
    (numbered : Numbered number (Line.split rest)) :
    Numbered number (Line.split (token :: rest)) := by
  rw [Line.split, if_neg isInline.1]
  cases cut : Line.split rest with
  | nil => exact absurd cut (Line.split_ne_nil rest)
  | cons line lines =>
      rw [cut] at numbered
      obtain ⟨inside, ends, last, later⟩ := numbered
      refine ⟨?_, ends, last, later⟩
      intro other member
      rcases List.mem_cons.mp member with rfl | member
      · exact ⟨isInline, sameLine⟩
      · exact inside other member

/-- A line break with its number starts an empty line in front of the lines, which are numbered from
    the next number on. -/
theorem numbered_break {rest : List Token} {number : Nat}
    (numbered : Numbered (number + 1) (Line.split rest)) :
    Numbered number (Line.split (Token.newline number :: rest)) := by
  rw [Line.split, if_pos (show (Token.newline number).kind = .newline from rfl)]
  exact ⟨by simp, by simp [Token.newline], by simp, numbered⟩

/-- The indentation of a line has the number of the line, however many tokens it has. The induction
    is on their number. -/
theorem numbered_indentation (bytes : List UInt8) {rest : List Token} {number : Nat}
    (numbered : Numbered number (Line.split rest)) :
    Numbered number (Line.split (Token.indentation number bytes ++ rest)) := by
  unfold Token.indentation
  induction (bytes.takeWhile isSpace).length / Token.indentWidth with
  | zero => simpa using numbered
  | succ count ih =>
      rw [List.replicate_succ, List.cons_append]
      exact numbered_cons ⟨by simp [Token.indent], by simp [Token.indent]⟩ rfl ih

/-- Scanning numbers the lines that it finds. The induction follows its recursion, in which the
    number grows exactly where a line break is cut off. -/
theorem numbered_scanLines {number : Nat} {bytes : List UInt8} {tokens : List Token}
    (scanned : Token.scanLines number bytes = .ok tokens) :
    Numbered number (Line.split tokens) := by
  induction number, bytes using Token.scanLines.induct generalizing tokens with
  | case1 number =>
      rw [Token.scanLines] at scanned
      cases scanned
      simp [Line.split, Numbered]
  | case2 number byte rest unread isGap =>
      rename_i ih
      simp only [Token.scanLines, isGap] at scanned
      exact ih scanned
  | case3 number byte rest unread isBreak =>
      rename_i ih
      simp only [Token.scanLines, isBreak] at scanned
      obtain ⟨later, scannedLater, same⟩ := except_bind_ok_iff.mp scanned
      cases same
      exact numbered_break (numbered_indentation _ (ih scannedLater))
  | case4 number byte rest unread kind isLexeme =>
      rename_i ih
      simp only [Token.scanLines, isLexeme] at scanned
      obtain ⟨later, scannedLater, same⟩ := except_bind_ok_iff.mp scanned
      cases same
      exact numbered_cons (Piece.front_inline isLexeme) rfl (ih scannedLater)
  | case5 number byte rest isOpen => simp [Token.scanLines, isOpen] at scanned
  | case6 number byte rest isOpen => simp [Token.scanLines, isOpen] at scanned

/-- The lines of a source are numbered from one, as an editor numbers them. -/
theorem numbered_scan {source : List UInt8} {tokens : List Token}
    (scanned : Token.scan source = .ok tokens) : Numbered 1 (Line.split tokens) := by
  unfold Token.scan at scanned
  split at scanned
  · cases scanned
  · obtain ⟨later, scannedLater, same⟩ := except_bind_ok_iff.mp scanned
    cases same
    exact numbered_indentation source (numbered_scanLines scannedLater)

/-! ## Counting -/

/-- Indentation on a line is counted piece by piece over stretches of tokens. -/
theorem indentsOn_append (first second : List Token) (number : Nat) :
    indentsOn (first ++ second) number = indentsOn first number + indentsOn second number :=
  List.countP_append

/-- Tokens of other lines do not count for a line, wherever they stand. -/
theorem indentsOn_of_ne {tokens : List Token} {number : Nat}
    (elsewhere : ∀ token ∈ tokens, token.line ≠ number) : indentsOn tokens number = 0 := by
  apply List.countP_eq_zero.mpr
  intro token member
  simp [elsewhere token member]

/-- The tokens of a numbered line, its line break included, have the number of the line. -/
theorem line_of_mem_all {number : Nat} {line : Line} {lines : List Line}
    (numbered : Numbered number (line :: lines)) {token : Token} (member : token ∈ line.all) :
    token.line = number := by
  rcases List.mem_append.mp member with member | member
  · exact (numbered.1 token member).2
  · exact (numbered.2.1 token (Option.mem_toList.mp member)).2

/-- What is counted on a numbered line is its level. All of its tokens carry its number, and its
    line break is no indentation. -/
theorem indentsOn_line {number : Nat} {line : Line} {lines : List Line}
    (numbered : Numbered number (line :: lines)) : indentsOn line.all number = line.level := by
  have noIndent : indentsOn line.ending.toList number = 0 := by
    apply List.countP_eq_zero.mpr
    intro token member
    simp [(numbered.2.1 token (Option.mem_toList.mp member)).1]
  rw [Line.all, indentsOn_append, noIndent, Nat.add_zero]
  apply List.countP_congr
  intro token member
  simp [(numbered.1 token member).2]

/-- Lines that are numbered from some number on have no indentation with a smaller one. -/
theorem indentsOn_earlier {number earlier : Nat} {lines : List Line}
    (numbered : Numbered number lines) (isEarlier : earlier < number) :
    indentsOn (lines.flatMap Line.all) earlier = 0 := by
  induction lines generalizing number with
  | nil => rfl
  | cons line lines ih =>
      have elsewhere : ∀ token ∈ line.all, token.line ≠ earlier := by
        intro token member
        rw [line_of_mem_all numbered member]
        omega
      rw [List.flatMap_cons, indentsOn_append, indentsOn_of_ne elsewhere,
        ih numbered.2.2.2 (by omega)]

/-- Numbers grow from line to line, so a token has at least the number that its lines start with. -/
theorem le_of_numbered {number : Nat} {lines : List Line} (numbered : Numbered number lines)
    {line : Line} (isLine : line ∈ lines) {token : Token} (member : token ∈ line.tokens) :
    number ≤ token.line := by
  induction lines generalizing number with
  | nil => simp at isLine
  | cons first lines ih =>
      rcases List.mem_cons.mp isLine with rfl | isLine
      · exact Nat.le_of_eq (numbered.1 token member).2.symm
      · exact Nat.le_of_succ_le (ih numbered.2.2.2 isLine)

/-- The indentation tokens with the number of a line are those of the line. -/
theorem indentsOn_numbered {number : Nat} {lines : List Line} (numbered : Numbered number lines) :
    ∀ line ∈ lines, ∀ token ∈ line.tokens,
      indentsOn (lines.flatMap Line.all) token.line = line.level := by
  induction lines generalizing number with
  | nil => simp
  | cons line lines ih =>
      have later := numbered.2.2.2
      intro other isLine token member
      rw [List.flatMap_cons, indentsOn_append]
      rcases List.mem_cons.mp isLine with rfl | isLine
      · rw [(numbered.1 token member).2, indentsOn_line numbered,
          indentsOn_earlier later (by omega), Nat.add_zero]
      · have isLater : number < token.line := le_of_numbered later isLine member
        rw [ih later other isLine token member, indentsOn_of_ne, Nat.zero_add]
        intro first isFirst
        rw [line_of_mem_all numbered isFirst]
        omega

end Offside
