import Offside.Layout
import Offside.Proofs.Token.Spelling

/-!
# Lines of text

A text laid out by the book: every line has its depth in full levels of
indentation, tokens with one blank between them, and a line break. Scanning gives
exactly these tokens on their lines, and layout turns the depths into block ends:
where the depth drops, one for each level lost, right before the next line.

The tokens after layout are a function of the lines, `TextLine.laid`, which cuts
at any place where the depth returns to a level that the lines before it do not
go below. This is what lets blocks be read one inside another.
-/

namespace Offside

/-- A line of text: how deep it stands, and what stands on it. -/
structure TextLine where
  depth : Nat
  tokens : List Token

/-- The same token on another line. -/
def Token.onLine (number : Nat) (token : Token) : Token :=
  ⟨token.kind, token.lexeme, number⟩

/-- Moving a token to another line leaves its kind alone. -/
@[simp]
theorem Token.onLine_kind (number : Nat) (token : Token) :
    (token.onLine number).kind = token.kind :=
  rfl

/-- A token that is moved stands on the line it is moved to. -/
@[simp]
theorem Token.onLine_line (number : Nat) (token : Token) : (token.onLine number).line = number :=
  rfl

/-- Of two moves only the second one counts, for a token has just one line. -/
@[simp]
theorem Token.onLine_onLine (first second : Nat) (token : Token) :
    (token.onLine first).onLine second = token.onLine second :=
  rfl

namespace TextLine

/-- The texts of tokens with one blank between neighbours. -/
def spaced : List Token → String
  | [] => ""
  | [token] => token.lexeme
  | token :: next :: rest => token.lexeme ++ " " ++ spaced (next :: rest)

/-- A line with its indentation and its line break. -/
def text (line : TextLine) : String :=
  String.ofList (List.replicate (Token.indentWidth * line.depth) ' ') ++ spaced line.tokens ++ "\n"

/-- All lines, one after another. -/
def textAll : List TextLine → String
  | [] => ""
  | line :: lines => line.text ++ textAll lines

/-- Something stands on the line, and all of it can be spelled out. -/
def Spelled (line : TextLine) : Prop :=
  line.tokens ≠ [] ∧ ∀ token ∈ line.tokens, token.Spelled

/-- No line stands more than one level deeper than the line before it, where the
    line before the first one has depth `level`. -/
def Climbs : Nat → List TextLine → Prop
  | _, [] => True
  | level, line :: lines => line.depth ≤ level + 1 ∧ Climbs line.depth lines

/-- The tokens of the lines, the first of which is number `number`. -/
def placed (number : Nat) : List TextLine → List Token
  | [] => []
  | line :: lines =>
      List.replicate line.depth (Token.indent number) ++
        (line.tokens.map (Token.onLine number) ++
          Token.newline number :: placed (number + 1) lines)

/-- The tokens of the lines after layout. The line before the first one has depth
    `level`, and a line of depth `target` follows the last one; what it closes is
    closed on line `closing`. -/
def laid (level target number closing : Nat) : List TextLine → List Token
  | [] => List.replicate (level - target) (Token.closeBlock closing)
  | line :: lines =>
      List.replicate (level - line.depth) (Token.closeBlock number) ++
        (line.tokens.map (Token.onLine number) ++
          Token.newline number :: laid line.depth target (number + 1) closing lines)

end TextLine

/-! ## Scanning -/

namespace Utf8

/-- Texts are encoded one character at a time, so the bytes of two texts in a row are those of the
    first and then those of the second. -/
theorem encode_append (first second : String) :
    encode (first ++ second) = encode first ++ encode second := by
  simp [encode]

end Utf8

namespace TextLine

/-- An indentation is written with as many blank bytes as it has columns, by induction on their
    number. -/
theorem encode_blanks (count : Nat) :
    Utf8.encode (String.ofList (List.replicate count ' ')) = List.replicate count 0x20 := by
  have blank : String.utf8EncodeChar ' ' = [0x20] := by decide
  rw [Utf8.encode, String.toList_ofList]
  induction count with
  | zero => rfl
  | succ count ih => rw [List.replicate_succ, List.flatMap_cons, ih, blank, List.replicate_succ]; rfl

/-- The tokens of a line are scanned one after another, up to its line break. -/
theorem scanLines_spaced {tokens : List Token} (spelled : ∀ token ∈ tokens, token.Spelled)
    (number : Nat) (rest : List UInt8) {later : List Token}
    (follows : Token.scanLines number (0x0A :: rest) = .ok later) :
    Token.scanLines number (Utf8.encode (spaced tokens) ++ 0x0A :: rest) =
      .ok (tokens.map (Token.onLine number) ++ later) := by
  fun_induction spaced tokens with
  | case1 => simpa [Utf8.encode] using follows
  | case2 token =>
      rw [scanLines_spelled (spelled token (by simp)) ⟨_, _, rfl, Or.inr rfl⟩, follows]
      rfl
  | case3 token next tokens ih =>
      have blank : Utf8.encode " " = [0x20] := by decide
      have onward := ih fun other member => spelled other (List.mem_cons_of_mem token member)
      rw [Utf8.encode_append, Utf8.encode_append, blank, List.append_assoc, List.append_assoc,
        List.singleton_append,
        scanLines_spelled (spelled token (by simp)) ⟨_, _, rfl, Or.inl rfl⟩, scanLines_blank,
        onward]
      rfl

/-- The tokens of a line do not start with a blank, so the indentation in front of them ends where
    they start. -/
theorem takeWhile_spaced {tokens : List Token} (nonempty : tokens ≠ [])
    (spelled : ∀ token ∈ tokens, token.Spelled) (rest : List UInt8) :
    (Utf8.encode (spaced tokens) ++ 0x0A :: rest).takeWhile isSpace = [] ∧
      (Utf8.encode (spaced tokens) ++ 0x0A :: rest).dropWhile isSpace =
        Utf8.encode (spaced tokens) ++ 0x0A :: rest := by
  match tokens, nonempty with
  | [token], _ =>
      exact dropWhile_spelled (spelled token (by simp)) ⟨_, _, rfl, Or.inr rfl⟩
  | token :: next :: tokens, _ =>
      have blank : Utf8.encode " " = [0x20] := by decide
      rw [spaced, Utf8.encode_append, Utf8.encode_append, blank, List.append_assoc,
        List.append_assoc, List.singleton_append]
      exact dropWhile_spelled (spelled token (by simp)) ⟨_, _, rfl, Or.inl rfl⟩

/-- The bytes of a line: the blanks of its indentation, its tokens, the line
    break. -/
theorem encode_text (line : TextLine) :
    Utf8.encode line.text =
      List.replicate (Token.indentWidth * line.depth) 0x20 ++
        (Utf8.encode (spaced line.tokens) ++ [0x0A]) := by
  have lineBreak : Utf8.encode "\n" = [0x0A] := by decide
  rw [text, Utf8.encode_append, Utf8.encode_append, encode_blanks, lineBreak, List.append_assoc]

/-- A line is read as its indentation and its unindented rest: one token for each level of its
    depth, and then the tokens that stand on it. -/
theorem unindent_line {line : TextLine} (spelled : line.Spelled) (number : Nat)
    (rest : List UInt8) :
    Token.indentation number (Utf8.encode line.text ++ rest) =
        List.replicate line.depth (Token.indent number) ∧
      (Utf8.encode line.text ++ rest).dropWhile isSpace =
        Utf8.encode (spaced line.tokens) ++ 0x0A :: rest := by
  obtain ⟨noBlank, kept⟩ := takeWhile_spaced spelled.1 spelled.2 rest
  have blanks : ∀ byte ∈ List.replicate (Token.indentWidth * line.depth) (0x20 : UInt8),
      isSpace byte = true := by
    intro byte member
    rw [List.eq_of_mem_replicate member]
    decide
  rw [encode_text, List.append_assoc, List.append_assoc, List.singleton_append]
  constructor
  · rw [Token.indentation, List.takeWhile_append_of_pos blanks, noBlank, List.append_nil,
      List.length_replicate, Nat.mul_div_cancel_left _ (by decide)]
  · rw [List.dropWhile_append_of_pos blanks, kept]

/-- Scanning the lines after the first indentation gives the tokens of all of
    them. -/
theorem scanLines_textAll (lines : List TextLine) (spelled : ∀ line ∈ lines, line.Spelled)
    (number : Nat) :
    ∃ later, Token.scanLines number ((Utf8.encode (textAll lines)).dropWhile isSpace) = .ok later ∧
      Token.indentation number (Utf8.encode (textAll lines)) ++ later = placed number lines := by
  induction lines generalizing number with
  | nil =>
      exact ⟨[], by simp [textAll, Utf8.encode, Token.scanLines],
        by simp [textAll, Utf8.encode, Token.indentation, placed]⟩
  | cons line lines ih =>
      obtain ⟨later, scanned, whole⟩ :=
        ih (fun other member => spelled other (List.mem_cons_of_mem line member)) (number + 1)
      obtain ⟨indented, rest⟩ := unindent_line (spelled line (by simp)) number
        (Utf8.encode (textAll lines))
      have follows : Token.scanLines number (0x0A :: Utf8.encode (textAll lines)) =
          .ok (Token.newline number :: placed (number + 1) lines) := by
        rw [scanLines_break, scanned, ← whole]
        rfl
      rw [textAll, Utf8.encode_append, indented, rest]
      exact ⟨_, scanLines_spaced (spelled line (by simp)).2 number _ follows, rfl⟩

/-- Scanning a text gives the tokens of its lines, numbered from one. Nothing but the spelling of
    the tokens is asked of the lines. -/
theorem scan_textAll {lines : List TextLine} (nonempty : lines ≠ [])
    (spelled : ∀ line ∈ lines, line.Spelled) :
    Token.scan (Utf8.encode (textAll lines)) = .ok (placed 1 lines) := by
  obtain ⟨later, scanned, whole⟩ := scanLines_textAll lines spelled 1
  have notEmpty : (Utf8.encode (textAll lines)).isEmpty = false := by
    obtain ⟨line, lines, rfl⟩ := List.exists_cons_of_ne_nil nonempty
    rw [textAll, Utf8.encode_append, encode_text]
    simp
  rw [Token.scan, notEmpty, scanned, ← whole]
  rfl

end TextLine

/-! ## Layout -/

/-- A line is cut off at its line break, the first one there is. The induction is on the tokens in
    front of it. -/
theorem Line.split_line {tokens : List Token} (noBreak : ∀ token ∈ tokens, token.kind ≠ .newline)
    {ending : Token} (isBreak : ending.kind = .newline) (rest : List Token) :
    Line.split (tokens ++ ending :: rest) = ⟨tokens, some ending⟩ :: Line.split rest := by
  induction tokens with
  | nil => rw [List.nil_append, Line.split, if_pos isBreak]
  | cons token tokens ih =>
      have later := ih fun other member => noBreak other (List.mem_cons_of_mem token member)
      rw [List.cons_append, Line.split, if_neg (noBreak token (by simp)), later]

namespace TextLine

/-- The line as layout takes it. -/
def placedLine (number : Nat) (line : TextLine) : Line :=
  ⟨List.replicate line.depth (Token.indent number) ++ line.tokens.map (Token.onLine number),
    some (Token.newline number)⟩

/-- A token that can be spelled out is neither a line break nor an indentation, whatever line it is
    put on. -/
theorem not_indent_of_mem {line : TextLine} (spelled : line.Spelled) {number : Nat}
    {token : Token} (member : token ∈ line.tokens.map (Token.onLine number)) :
    token.kind ≠ .newline ∧ token.kind ≠ .indent := by
  obtain ⟨original, isOriginal, rfl⟩ := List.mem_map.mp member
  exact ⟨(spelled.2 original isOriginal).kind_ne.1, (spelled.2 original isOriginal).kind_ne.2.1⟩

/-- The tokens of a text are cut into its lines again. A line ends at the line break put behind it,
    for there is none among its tokens. -/
theorem split_placed {line : TextLine} (spelled : line.Spelled) (number : Nat)
    (lines : List TextLine) :
    Line.split (placed number (line :: lines)) =
      placedLine number line :: Line.split (placed (number + 1) lines) := by
  rw [placed, ← List.append_assoc]
  apply Line.split_line _ rfl
  intro token member
  rcases List.mem_append.mp member with isIndent | isContent
  · rw [List.eq_of_mem_replicate isIndent]
    exact Kind.noConfusion
  · exact (not_indent_of_mem spelled isContent).1

/-- The level of a line that is cut out is the depth it was written at, since its own tokens count
    no indentation. -/
theorem level_placedLine {line : TextLine} (spelled : line.Spelled) (number : Nat) :
    (placedLine number line).level = line.depth := by
  have none : (line.tokens.map (Token.onLine number)).countP
      (fun token => token.kind == .indent) = 0 := by
    rw [List.countP_eq_zero]
    intro token member
    simpa using (not_indent_of_mem spelled member).2
  rw [Line.level, placedLine, List.countP_append, none, List.countP_replicate]
  rfl

/-- What stands on a line after its indentation are the tokens it was written from, moved to the
    line. -/
theorem content_placedLine {line : TextLine} (spelled : line.Spelled) (number : Nat) :
    (placedLine number line).content = line.tokens.map (Token.onLine number) := by
  have all : (line.tokens.map (Token.onLine number)).filter
      (fun token => token.kind != .indent) = line.tokens.map (Token.onLine number) := by
    rw [List.filter_eq_self]
    intro token member
    simpa using (not_indent_of_mem spelled member).2
  rw [Line.content, placedLine, List.filter_append, all, List.filter_replicate]
  rfl

/-- Layout of lines that climb one level at a time. What is still open at the end
    is left to be closed. -/
theorem ofLines_placed (lines : List TextLine) (spelled : ∀ line ∈ lines, line.Spelled)
    {level : Nat} (climbs : Climbs level lines) (number target closing : Nat) :
    ∃ layout, Layout.ofLines level (Line.split (placed number lines)) = .ok layout ∧
      layout.tokens ++ List.replicate (layout.level - target) (Token.closeBlock closing) =
        laid level target number closing lines := by
  induction lines generalizing level number with
  | nil => exact ⟨⟨[], level, 0⟩, rfl, rfl⟩
  | cons line lines ih =>
      obtain ⟨low, climbsOn⟩ := climbs
      have lineSpelled := spelled line (by simp)
      obtain ⟨later, laidLater, whole⟩ :=
        ih (fun other member => spelled other (List.mem_cons_of_mem line member)) climbsOn
          (number + 1)
      obtain ⟨first, others, isCons⟩ := List.exists_cons_of_ne_nil lineSpelled.1
      have content := content_placedLine lineSpelled number
      rw [isCons, List.map_cons] at content
      rw [split_placed lineSpelled, Layout.ofLines]
      simp only [content, level_placedLine lineSpelled, laidLater]
      rw [if_neg (by omega)]
      refine ⟨_, rfl, ?_⟩
      rw [laid, ← whole, Line.unindented, content, isCons]
      simp [placedLine, Token.onLine]

/-- Layout of a whole text whose lines start at the margin and climb one level at
    a time. -/
theorem ofTokens_placed {lines : List TextLine} (spelled : ∀ line ∈ lines, line.Spelled)
    (climbs : Climbs 0 lines) :
    ∃ layout last, Layout.ofTokens (placed 1 lines) = .ok layout ∧
      layout.tokens = laid 0 0 1 last lines ++ [Token.newline last] := by
  obtain ⟨layout, isLaid, whole⟩ :=
    ofLines_placed lines spelled climbs 1 0 (Token.lastLine (placed 1 lines))
  rw [Layout.ofTokens, isLaid]
  refine ⟨_, Token.lastLine (placed 1 lines), rfl, ?_⟩
  rw [← whole]
  simp

/-! ## Cutting laid out lines -/

/-- What a list of lines of one depth looks like: it starts there, never goes below
    it and climbs one level at a time. -/
structure Nested (depth : Nat) (lines : List TextLine) : Prop where
  starts : ∃ line rest, lines = line :: rest ∧ line.depth = depth
  inside : ∀ line ∈ lines, depth ≤ line.depth
  climbs : Climbs depth lines
  spelled : ∀ line ∈ lines, line.Spelled

/-- If lines climb from a level, they climb from any higher one. Only the first line is concerned,
    which may be deeper then. -/
theorem Climbs.raise {level higher : Nat} {lines : List TextLine} (climbs : Climbs level lines)
    (le : level ≤ higher) : Climbs higher lines := by
  cases lines with
  | nil => trivial
  | cons line lines => exact ⟨Nat.le_trans climbs.1 (by omega), climbs.2⟩

/-- Lines that climb, followed by lines that do so from a depth the first ones never go below, climb
    as a whole. The first part ends at that depth or deeper. -/
theorem Climbs.append {level depth : Nat} {first second : List TextLine}
    (climbs : Climbs level first) (inside : ∀ line ∈ first, depth ≤ line.depth)
    (le : depth ≤ level) (onward : Climbs depth second) : Climbs level (first ++ second) := by
  induction first generalizing level with
  | nil => exact onward.raise le
  | cons line first ih =>
      exact ⟨climbs.1, ih climbs.2 (fun other member => inside other (List.mem_cons_of_mem _ member))
        (inside line (by simp))⟩

namespace Nested

/-- One line is a list of lines of its depth, with nothing in it that could go below or climb. -/
theorem single {depth : Nat} {tokens : List Token} (spelled : Spelled ⟨depth, tokens⟩) :
    Nested depth [⟨depth, tokens⟩] where
  starts := ⟨_, _, rfl, rfl⟩
  inside := by simp
  climbs := ⟨Nat.le_succ depth, trivial⟩
  spelled := by simpa using spelled

/-- Lines of one depth after lines of the same depth are lines of that depth, for a line may always
    return to a depth that was there. -/
theorem append {depth : Nat} {first second : List TextLine} (leading : Nested depth first)
    (following : Nested depth second) : Nested depth (first ++ second) where
  starts := by
    obtain ⟨line, rest, rfl, atDepth⟩ := leading.starts
    exact ⟨line, rest ++ second, rfl, atDepth⟩
  inside := by
    intro line member
    rcases List.mem_append.mp member with member | member
    · exact leading.inside line member
    · exact following.inside line member
  climbs := leading.climbs.append leading.inside (Nat.le_refl depth) following.climbs
  spelled := by
    intro line member
    rcases List.mem_append.mp member with member | member
    · exact leading.spelled line member
    · exact following.spelled line member

/-- A header with the lines of its block, one level deeper, is a list of lines of the depth of the
    header. -/
theorem header {depth : Nat} {tokens : List Token} (spelled : Spelled ⟨depth, tokens⟩)
    {body : List TextLine} (nested : Nested (depth + 1) body) :
    Nested depth (⟨depth, tokens⟩ :: body) where
  starts := ⟨_, _, rfl, rfl⟩
  inside := by
    intro line member
    rcases List.mem_cons.mp member with rfl | member
    · exact Nat.le_refl depth
    · exact Nat.le_of_succ_le (nested.inside line member)
  climbs := by
    obtain ⟨line, rest, rfl, atDepth⟩ := nested.starts
    exact ⟨Nat.le_succ depth, Nat.le_of_eq atDepth, nested.climbs.2⟩
  spelled := by
    intro line member
    rcases List.mem_cons.mp member with rfl | member
    · exact spelled
    · exact nested.spelled line member

end Nested

/-- Laid out lines are cut where the depth returns: what the lines before the cut
    leave open is closed there, on the first line after it. -/
theorem laid_append {level depth : Nat} {first second : List TextLine}
    (inside : ∀ line ∈ first, depth ≤ line.depth) (le : depth ≤ level)
    (starts : ∃ line rest, second = line :: rest ∧ line.depth = depth)
    (target number closing : Nat) :
    laid level target number closing (first ++ second) =
      laid level depth number (number + first.length) first ++
        laid depth target (number + first.length) closing second := by
  induction first generalizing level number with
  | nil =>
      obtain ⟨line, rest, rfl, rfl⟩ := starts
      simp [laid]
  | cons line first ih =>
      have later := ih (fun other member => inside other (List.mem_cons_of_mem _ member))
        (inside line (by simp)) (number + 1)
      rw [List.cons_append, laid, laid, later]
      simp [Nat.add_assoc, Nat.add_comm 1]

/-- Lines that stay inside a block are followed by one block end more when the
    next line stands outside it. -/
theorem laid_close {level depth : Nat} {lines : List TextLine}
    (inside : ∀ line ∈ lines, depth + 1 ≤ line.depth) (le : depth + 1 ≤ level)
    (number closing : Nat) :
    laid level depth number closing lines =
      laid level (depth + 1) number closing lines ++ [Token.closeBlock closing] := by
  induction lines generalizing level number with
  | nil =>
      rw [laid, laid, show level - depth = level - (depth + 1) + 1 by omega,
        List.replicate_succ']
  | cons line lines ih =>
      have later := ih (fun other member => inside other (List.mem_cons_of_mem _ member))
        (inside line (by simp)) (number + 1)
      rw [laid, laid, later]
      simp

end TextLine

end Offside
