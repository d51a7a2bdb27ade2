import Offside.Proofs.Source.Lines
import Offside.Proofs.Token.Lexemes
import Offside.Proofs.Token.Lineation

/-!
# Tokens written out

Tokens can be written out as a text: four spaces for a level of indentation, a line feed
for a line break, the lexeme of any other token, and one space between two of these.
Comments, spaces that are not indentation, the spelling of line breaks and bytes that are
no UTF-8 do not come back, but they are in no token either. Scanning the text gives the
tokens that were written.

The space is there for neighbours that would be scanned as one: `=` and `=`, or a name and
a number. It keeps any two lexemes apart.
-/

namespace Offside

open Token

namespace Token

/-- The token is neither a line break nor indentation. -/
def isContent (token : Token) : Bool :=
  token.kind != .newline && token.kind != .indent

/-- What is written for a token. -/
def glyph (token : Token) : String :=
  match token.kind with
  | .newline => "\n"
  | .indent => "    "
  | _ => token.lexeme

/-- What is written between a token and the one after it, if there is one. -/
def separator (token : Token) (next : Option Token) : String :=
  if token.isContent && next.any isContent then " " else ""

/-- The text of tokens. -/
def written : List Token → String
  | [] => ""
  | token :: rest => token.glyph ++ (token.separator rest.head? ++ written rest)

/-- Tokens as they stand in a source from line `line` on: content is spelled out, a line
    break starts the next line, and indentation only stands where a line starts. Whether one
    starts here is said by `start`. -/
inductive Ruled : Bool → Nat → List Token → Prop where
  | nil {start : Bool} {line : Nat} : Ruled start line []
  | indent {line : Nat} {tokens : List Token} (later : Ruled true line tokens) :
      Ruled true line (Token.indent line :: tokens)
  | newline {start : Bool} {line : Nat} {tokens : List Token}
      (later : Ruled true (line + 1) tokens) : Ruled start line (Token.newline line :: tokens)
  | content {start : Bool} {line : Nat} {token : Token} {tokens : List Token}
      (spelled : token.Spelled) (here : token.line = line) (later : Ruled false line tokens) :
      Ruled start line (token :: tokens)

/-- Tokens that may follow on a line may also start one, for at the start of a line even more is
    allowed: indentation. -/
theorem Ruled.anywhere {line : Nat} {tokens : List Token} (ruled : Ruled false line tokens)
    (start : Bool) : Ruled start line tokens := by
  cases ruled with
  | nil => exact .nil
  | newline later => exact .newline later
  | content spelled here later => exact .content spelled here later

/-- A token that can be spelled out is content. Indentation and line breaks have no spelling of
    their own. -/
theorem Spelled.isContent {token : Token} (spelled : token.Spelled) : token.isContent = true := by
  simp [Token.isContent, spelled.kind_ne.1, spelled.kind_ne.2.1]

/-- A token that can be spelled out is written as its lexeme, for it is content. -/
theorem Spelled.glyph {token : Token} (spelled : token.Spelled) : token.glyph = token.lexeme := by
  obtain ⟨noBreak, noIndent, -⟩ := spelled.kind_ne
  unfold Token.glyph
  split
  · exact absurd ‹_› noBreak
  · exact absurd ‹_› noIndent
  · rfl

end Token

/-! ## The tokens of a source -/

/-- Segments without illegal bytes have tokens that stand as in a source. -/
theorem ruled_tokens {start : Bool} {segments : List Segment} (cut : Segment.Cut start segments)
    (line : Nat) (legal : ∀ token ∈ Segment.tokens line segments, token.kind ≠ .illegal) :
    Ruled start line (Segment.tokens line segments) := by
  induction segments generalizing start line with
  | nil => exact .nil
  | cons segment segments ih =>
      obtain ⟨here, cut⟩ := cut
      cases segment with
      | indent =>
          rcases here with spaces | longest
          · cases spaces
            exact .indent (ih cut line (List.forall_mem_cons.mp legal).2)
          · cases longest
      | blank bytes => exact (ih cut line legal).anywhere start
      | lineBreak bytes => exact .newline (ih cut (line + 1) (List.forall_mem_cons.mp legal).2)
      | lexeme kind bytes =>
          obtain ⟨isLegal, laterLegal⟩ := List.forall_mem_cons.mp legal
          rcases here with spaces | longest
          · cases spaces
          · have spelled := (lexeme_spelled longest line).resolve_left isLegal
            exact .content spelled rfl (ih cut line laterLegal)

/-- Scanned tokens without an illegal one among them keep the rules: indentation at the start of a
    line, then what can be spelled out, then a line break. -/
theorem scan_ruled {source : List UInt8} {tokens : List Token} (scanned : scan source = .ok tokens)
    (legal : ∀ token ∈ tokens, token.kind ≠ .illegal) : Ruled true 1 tokens := by
  by_cases nonempty : source = []
  · subst nonempty
    cases scanned
  · obtain ⟨segments, -, cut, rfl⟩ := (Segment.scan_iff nonempty tokens).mp scanned
    exact ruled_tokens cut 1 legal

/-! ## Scanning what was written -/

/-- Nothing stands here, or a blank or a line break does. -/
def Parted (bytes : List UInt8) : Prop :=
  bytes = [] ∨ Apart bytes

/-- At the end of a source, too, the text of a token is scanned as the token's kind: what a
    line break after it would not change is the same without one. -/
theorem front_parted {token : Token} (spelled : token.Spelled) {rest : List UInt8}
    (parted : Parted rest) : FrontIs token.kind token.lexeme.toList rest := by
  rcases parted with rfl | apart
  · obtain ⟨byte, tail, bytes, noSpace, front⟩ :=
      front_spelled spelled (⟨0x0A, [], rfl, .inr rfl⟩ : Apart [0x0A])
    have noFeed : 0x0A ∉ byte :: tail := by
      have within := (front_within byte (tail ++ [0x0A])).2
      rw [front, List.take_left] at within
      exact within (by simp)
    have noBreak : ¬ BreaksLine (byte :: (tail ++ [0x0A])) := by
      rintro ⟨later, same | same⟩
      · cases same
        exact noFeed List.mem_cons_self
      · cases tail with
        | nil =>
            cases same
            rw [List.nil_append, Segment.front_carriageReturn] at front
            cases front
        | cons next tail =>
            cases same
            simp at noFeed
    have noComment : byte ≠ 0x23 := by
      rintro rfl
      rw [Segment.front_comment] at front
      cases front
    refine ⟨byte, tail, bytes, noSpace, ?_⟩
    rw [List.append_nil, ← front, front_append (by simp [Separates])
      (iff_of_false noBreak (not_breaksLine noFeed)) noComment]
    exact fun _ => .inl (by simp; decide +kernel)
  · exact front_spelled spelled apart

/-- A token is scanned from its text if what comes after it is parted from it. The rest is scanned
    on the same line. -/
theorem scanLines_parted {token : Token} (spelled : token.Spelled) {rest : List UInt8}
    (parted : Parted rest) (line : Nat) :
    scanLines line (Utf8.encode token.lexeme ++ rest) = do
      let later ← scanLines line rest
      return ⟨token.kind, token.lexeme, line⟩ :: later :=
  (front_parted spelled parted).scanLines line

/-- Where no blank stands there is no indentation, so scanning goes on with the tokens of the line
    at once. -/
theorem scanFrom_unindented (line : Nat) {bytes : List UInt8}
    (unindented : ∀ byte ∈ bytes.head?, isSpace byte = false) :
    scanFrom line bytes = scanLines line bytes := by
  cases bytes with
  | nil => rw [scanFrom_nil, scanLines]
  | cons byte rest =>
      have noSpace := unindented byte rfl
      simp [scanFrom, indentation, noSpace]

/-- The text of a token starts with no blank, whatever comes after it. So nothing of it is taken for
    indentation. -/
theorem unindented_spelled {token : Token} (spelled : token.Spelled) (rest : List UInt8) :
    ∀ byte ∈ (Utf8.encode token.lexeme ++ rest).head?, isSpace byte = false := by
  obtain ⟨first, tail, bytes, noSpace, -⟩ := front_parted spelled (.inl rfl)
  have whole : Utf8.encode token.lexeme = first :: tail := bytes
  rw [whole]
  rintro byte ⟨⟩
  exact noSpace

/-- Four spaces at the start of a line are one level of indentation, and what comes after them is
    scanned like the start of a line again. -/
theorem scanFrom_indent (line : Nat) (rest : List UInt8) :
    scanFrom line (Utf8.encode "    " ++ rest) = do
      let later ← scanFrom line rest
      return Token.indent line :: later := by
  have spaces : Utf8.encode "    " = [0x20, 0x20, 0x20, 0x20] := by decide
  have isBlank : isSpace 0x20 = true := by decide
  have level : indentation line (Utf8.encode "    " ++ rest) =
      Token.indent line :: indentation line rest := by
    rw [spaces, indentation, indentation, ← List.replicate_succ]
    congr 1
    simp only [List.cons_append, List.nil_append, List.takeWhile_cons, isBlank, if_true,
      List.length_cons, indentWidth]
    omega
  have dropped : (Utf8.encode "    " ++ rest).dropWhile isSpace = rest.dropWhile isSpace := by
    simp [spaces, isBlank]
  rw [scanFrom, level, dropped, scanFrom]
  simp only [bind_assoc, pure_bind, List.cons_append]

/-- A line feed at the start of a line is a line break, and the rest is scanned as the lines from
    the next one on. -/
theorem scanFrom_break (line : Nat) (rest : List UInt8) :
    scanFrom line (0x0A :: rest) = do
      let later ← scanFrom (line + 1) rest
      return Token.newline line :: later := by
  rw [scanFrom_unindented line (by simp; decide), scanLines_break, scanFrom]
  simp only [bind_assoc, pure_bind]

/-- The bytes of written tokens, one token at a time: what the token is written as, and then its
    separator before the other tokens. -/
theorem encode_written (token : Token) (rest : List Token) :
    Utf8.encode (written (token :: rest)) =
      Utf8.encode token.glyph ++
        Utf8.encode (token.separator rest.head? ++ written rest) := by
  rw [written, Utf8.encode_append]

/-- A line break is written as a line feed alone, with no separator after it. -/
theorem encode_written_newline (line : Nat) (rest : List Token) :
    Utf8.encode (written (Token.newline line :: rest)) = 0x0A :: Utf8.encode (written rest) := by
  have lineBreak : Utf8.encode "\n" = [0x0A] := by decide
  rw [encode_written, show (Token.newline line).glyph = "\n" from rfl, lineBreak]
  rfl

/-- What is written after a token is parted from it, and a space in front of it makes no
    difference. -/
theorem Token.Ruled.separated {line : Nat} {tokens : List Token} (ruled : Ruled false line tokens)
    {token : Token} (content : token.isContent = true) :
    Parted (Utf8.encode (token.separator tokens.head? ++ written tokens)) ∧
      scanLines line (Utf8.encode (token.separator tokens.head? ++ written tokens)) =
        scanLines line (Utf8.encode (written tokens)) := by
  cases ruled with
  | nil =>
      have nothing : token.separator none = "" := by simp [separator]
      rw [List.head?_nil, nothing, String.empty_append]
      exact ⟨.inl rfl, rfl⟩
  | newline later =>
      have nothing : token.separator (some (Token.newline line)) = "" := by
        simp [separator, Token.isContent, Token.newline]
      rw [List.head?_cons, nothing, String.empty_append, encode_written_newline]
      exact ⟨.inr ⟨_, _, rfl, .inr rfl⟩, rfl⟩
  | @content _ _ next _ spelled here later =>
      have space : token.separator (some next) = " " := by
        simp [separator, content, spelled.isContent]
      have blank : Utf8.encode " " = [0x20] := by decide
      rw [List.head?_cons, space, Utf8.encode_append, blank]
      exact ⟨.inr ⟨_, _, rfl, .inl rfl⟩, scanLines_blank line _⟩

/-- Tokens that stand as in a source are scanned from what is written for them. In the middle
    of a line they are scanned without indentation in front. -/
theorem Token.Ruled.scanned {start : Bool} {line : Nat} {tokens : List Token}
    (ruled : Ruled start line tokens) :
    scanFrom line (Utf8.encode (written tokens)) = .ok tokens ∧
      (start = false → scanLines line (Utf8.encode (written tokens)) = .ok tokens) := by
  induction ruled with
  | nil => exact ⟨scanFrom_nil _, fun _ => by simp [written, Utf8.encode, scanLines]⟩
  | @indent line tokens later ih =>
      refine ⟨?_, by simp⟩
      have nothing : (Token.indent line).separator tokens.head? = "" := by
        simp [separator, Token.isContent, Token.indent]
      rw [encode_written, nothing, String.empty_append,
        show (Token.indent line).glyph = "    " from rfl, scanFrom_indent, ih.1]
      rfl
  | @newline start line tokens later ih =>
      have broken : scanFrom line (Utf8.encode (written (Token.newline line :: tokens))) =
          .ok (Token.newline line :: tokens) := by
        rw [encode_written_newline, scanFrom_break, ih.1]
        rfl
      refine ⟨broken, fun _ => ?_⟩
      rwa [encode_written_newline, scanFrom_unindented line (by simp; decide),
        ← encode_written_newline line] at broken
  | @content start line token tokens spelled here later ih =>
      obtain ⟨parted, unseparated⟩ := later.separated spelled.isContent
      have bytes : Utf8.encode (written (token :: tokens)) =
          Utf8.encode token.lexeme ++
            Utf8.encode (token.separator tokens.head? ++ written tokens) := by
        rw [encode_written, spelled.glyph]
      have scanned : scanLines line (Utf8.encode (written (token :: tokens))) =
          .ok (token :: tokens) := by
        rw [bytes, scanLines_parted spelled parted, unseparated, ih.2 rfl]
        subst here
        rfl
      refine ⟨?_, fun _ => scanned⟩
      rw [scanFrom_unindented line (bytes ▸ unindented_spelled spelled _), scanned]

/-- Scanning what is written for the tokens of a source gives these tokens, kind, lexeme and
    line of each, unless one of them is illegal. -/
theorem scan_written {source : List UInt8} {tokens : List Token}
    (scanned : scan source = .ok tokens) (nonempty : tokens ≠ [])
    (legal : ∀ token ∈ tokens, token.kind ≠ .illegal) :
    scan (Utf8.encode (written tokens)) = .ok tokens := by
  have again := (scan_ruled scanned legal).scanned.1
  have notEmpty : Utf8.encode (written tokens) ≠ [] := by
    intro empty
    rw [empty, scanFrom_nil] at again
    cases again
    exact nonempty rfl
  rw [scan_eq_scanFrom notEmpty, again]

/-- A string with a byte that is no UTF-8, an operator right after it, a comment, a carriage
    return, and six spaces in front of the last line. -/
theorem scan_written_replaced :
    let source : List UInt8 := Utf8.encode "x=\"" ++ 0xFF :: Utf8.encode "\"==# y\r\n      z"
    let tokens : List Token :=
      [⟨.identifier, "x", 1⟩, ⟨.assign, "=", 1⟩, ⟨.stringLiteral, "\"\uFFFD\"", 1⟩,
        ⟨.equal, "==", 1⟩, Token.newline 1, Token.indent 2, ⟨.identifier, "z", 2⟩]
    scan source = .ok tokens ∧ tokens ≠ [] ∧ (∀ token ∈ tokens, token.kind ≠ .illegal) ∧
      written tokens = "x = \"\uFFFD\" ==\n    z" ∧
      scan (Utf8.encode (written tokens)) = .ok tokens := by
  intro source tokens
  have scanned : scan source = .ok tokens := by
    dsimp only [source, tokens]
    cbv
  have legal : ∀ token ∈ tokens, token.kind ≠ .illegal := by decide
  exact ⟨scanned, by decide, legal, by decide, scan_written scanned (by decide) legal⟩

end Offside
