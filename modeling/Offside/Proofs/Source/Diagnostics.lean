import Offside.Proofs.Source.Agreement
import Offside.Proofs.Text.Decoding
import Offside.Proofs.Token.Lineation

/-!
# Diagnostics

A diagnostic is printed on one line and sends its reader to a line of the source. Both
have to hold at every place where a phase gives up, whatever the bytes of the source are:
messages show lexemes, and lines come from tokens that the source has and from tokens
that layout adds.

Tokens are followed through the phases by matching them with themselves. A token matches
itself if it stands on a line of the source and its lexeme has no line break; the phases
then agree with themselves, which says that a failure shows such tokens only.
-/

namespace Offside

open Token

/-- The text has no line break. -/
def OneLine (text : String) : Prop :=
  '\n' ∉ text.toList

instance (text : String) : Decidable (OneLine text) :=
  inferInstanceAs (Decidable ('\n' ∉ text.toList))

/-- Two texts put together are on one line exactly if both are. Messages are put together from fixed
    words and lexemes. -/
@[simp]
theorem oneLine_append (first second : String) :
    OneLine (first ++ second) ↔ OneLine first ∧ OneLine second := by
  simp [OneLine]

/-- A number is written with digits only, so no line number breaks a message. -/
@[simp]
theorem lineFeed_notMem_toDigits (number : Nat) : '\n' ∉ Nat.toDigits 10 number := fun member =>
  absurd (Nat.isDigit_of_mem_toDigits (by decide) (by decide) member) (by decide)

/-- Any number of texts of one line, joined without anything between them, stay on one line. The
    steps of a trail are joined like this. -/
theorem oneLine_join {texts : List String} (oneLine : ∀ text ∈ texts, OneLine text) :
    OneLine (String.join texts) := by
  intro member
  rw [String.toList_join] at member
  obtain ⟨text, listed, inside⟩ := List.mem_flatMap.mp member
  exact oneLine text listed inside

/-- Bytes without a line feed decode to a text of one line, valid or not. A replacement character is
    no line break either. -/
theorem oneLine_decode {bytes : List UInt8} (noFeed : 0x0A ∉ bytes) :
    OneLine (Utf8.decode bytes) := by
  intro member
  rw [Utf8.decode, String.toList_ofList] at member
  obtain ⟨byte, inside, same⟩ := Utf8.mem_of_mem_decodeChars member (by decide) (by decide)
  have isFeed : byteChar byte = byteChar 0x0A := same
  exact noFeed (Segment.byteChar_inj.mp isFeed ▸ inside)

/-! ## Wording -/

/-- The words for a kind are on one line, by a look at all kinds. The line break is called by its
    name. -/
theorem Kind.oneLine_describe (kind : Kind) : OneLine kind.describe := by
  cases kind <;> decide

/-- The words for several kinds are on one line, with an `or` between any two of them. -/
theorem Kind.oneLine_describeAny (kinds : List Kind) : OneLine (Kind.describeAny kinds) := by
  unfold Kind.describeAny
  induction kinds with
  | nil => decide
  | cons kind kinds ih =>
      cases kinds with
      | nil => simpa using kind.oneLine_describe
      | cons next kinds =>
          rw [List.map_cons, List.map_cons, String.intercalate_cons_cons]
          simp only [oneLine_append]
          exact ⟨⟨kind.oneLine_describe, by decide⟩, ih⟩

/-- The current token is shown on one line: a line break by the name of its kind, any other token by
    its lexeme, which has none. -/
theorem SyntaxFault.oneLine_describeFound {found : Option Token}
    (shown : ∀ token ∈ found, token.kind = .newline ∨ OneLine token.lexeme) :
    OneLine (describeFound found) := by
  cases found with
  | none => decide
  | some token =>
      by_cases layout : token.kind = .newline ∨ token.kind = .closeBlock
      · simpa only [describeFound, if_pos layout] using token.kind.oneLine_describe
      · have lexeme := (shown token rfl).resolve_left fun isBreak => layout (.inl isBreak)
        simp only [describeFound, if_neg layout, oneLine_append]
        exact ⟨⟨by decide, lexeme⟩, by decide⟩

/-- Every message of a fault of syntax is on one line if the token that it shows is fit to be shown.
    Most of these messages show no token. -/
theorem SyntaxFault.oneLine_message {fault : SyntaxFault}
    (shown : ∀ token ∈ fault.shown, token.kind = .newline ∨ OneLine token.lexeme) :
    OneLine fault.message := by
  have found := oneLine_describeFound shown
  unfold message
  cases fault with
  | missingImport => simp [OneLine, runtimeModule]
  | expected kinds found =>
      have kinds := Kind.oneLine_describeAny kinds
      simp_all [OneLine, SyntaxFault.shown]
  | _ => simp_all [OneLine, SyntaxFault.shown]

/-- Every message of static analysis is on one line if the names in it are. These are names of
    variables, functions and types of the program. -/
theorem TypingFault.oneLine_message {fault : TypingFault}
    (names : ∀ name ∈ fault.names, OneLine name) : OneLine fault.message := by
  unfold message
  cases fault <;> simp_all [TypingFault.names, OneLine]

/-- The message of layout is on one line, as it has two numbers in it and no lexeme. -/
theorem LayoutFault.oneLine_message (fault : LayoutFault) : OneLine fault.message := by
  unfold message
  simp [OneLine]

/-- The message for a number without a last digit shows the number, and nothing else that could
    break the line. -/
theorem LexicalFault.oneLine_danglingNumber {text : String} (oneLine : OneLine text) :
    OneLine (LexicalFault.danglingNumber text).message := by
  unfold message
  simp_all [OneLine]

/-- The names of the rules are on one line. Each of them is fixed, so they are gone through one by
    one. -/
theorem Rule.oneLine_name (rule : Rule) : OneLine rule.name := by
  cases rule <;> decide

/-- The words that a failure starts with are on one line, which for static analysis name the rule
    that was broken. -/
theorem Failure.oneLine_heading (failure : Failure) : OneLine failure.heading := by
  unfold heading
  cases failure with
  | analysis rule diagnostic =>
      have name := rule.oneLine_name
      simp_all [OneLine]
  | _ => simp [OneLine]

/-- A failure is printed on one line if the steps of its trail and its message are. -/
theorem Failure.oneLine_render {failure : Failure}
    (trail : ∀ step ∈ failure.diagnostic.trail, OneLine step)
    (message : OneLine failure.diagnostic.message) : OneLine failure.render := by
  have steps : OneLine (String.join (failure.diagnostic.trail.map (· ++ " -> "))) := by
    apply oneLine_join
    rw [List.forall_mem_map]
    intro step listed
    exact (oneLine_append _ _).mpr ⟨trail step listed, by decide⟩
  have heading := failure.oneLine_heading
  simp_all [render, Diagnostic.render, OneLine]

/-! ## Failures -/

/-- The trail starts with the phase that gave up. -/
def Failure.NamesPhase : Failure → Prop
  | .lexical diagnostic => ["lex"] <+: diagnostic.trail
  | .parse diagnostic =>
      diagnostic.trail = ["normalize"] ∨ ["parse", "program"] <+: diagnostic.trail
  | .analysis _ diagnostic => ∃ step inner, diagnostic.trail = "analyze" :: step :: inner
  | .emission _ => False

/-- The failure can be shown for a source that ends on line `last`. -/
structure Failure.Printable (last : Nat) (failure : Failure) : Prop where
  line : 1 ≤ failure.diagnostic.line ∧ failure.diagnostic.line ≤ last
  oneLine : OneLine failure.render
  phase : failure.NamesPhase

/-- The token stands on a line of the source, and unless it is a line break, its lexeme has
    none. -/
structure Token.Within (last : Nat) (token : Token) : Prop where
  line : 1 ≤ token.line ∧ token.line ≤ last
  lexeme : token.kind ≠ .newline → OneLine token.lexeme

/-- The outcome is a value as required, or else a failure that can be shown. -/
def Prints {α : Type} (last : Nat) (required : α → Prop) : Except Failure α → Prop
  | .ok value => required value
  | .error failure => failure.Printable last

variable {α β : Type} {last : Nat}

/-- A phase after another one can be followed in the same way: what the first one ensures of its
    value is what the second one may rely on. -/
theorem Prints.bind {first : Except Failure α} {next : α → Except Failure β}
    {required : α → Prop} {result : β → Prop} (printed : Prints last required first)
    (later : ∀ value, required value → Prints last result (next value)) :
    Prints last result (first >>= next) := by
  cases first with
  | ok value => exact later value printed
  | error failure => exact printed

/-- A phase that can be shown agrees with itself, and its value is as required. This turns facts
    about scanning and layout into the form in which the later phases are followed. -/
theorem Prints.agree {outcome : Except Failure α} {required : α → Prop}
    (printed : Prints last required outcome) :
    Traced.Agree (fun failure _ => failure.Printable last)
      (fun value other => value = other ∧ required value) (Traced.lift outcome)
      (Traced.lift outcome) := by
  cases outcome with
  | ok value => exact Traced.agree_pure ⟨rfl, printed⟩
  | error failure => exact Traced.agree_throw printed

/-! ## Scanning -/

/-- A lexical fault on a line of the source can be shown if its message is on one line. Its trail
    names scanning. -/
theorem LexicalFault.printable {fault : LexicalFault} {line : Nat} (real : 1 ≤ line ∧ line ≤ last)
    (oneLine : OneLine fault.message) : (fault.onLine line).Printable last where
  line := real
  oneLine := by
    refine Failure.oneLine_render ?_ oneLine
    cases fault <;> simp [LexicalFault.onLine, Failure.diagnostic, LexicalFault.trail, OneLine]
  phase := by cases fault <;> exact ⟨_, rfl⟩

/-- The bytes after a line break have one line feed less, whichever form the line break has. So the
    number of a line never exceeds one more than the line feeds of the source. -/
theorem count_lineBreak {byte : UInt8} {rest : List UInt8}
    (isBreak : (Piece.front byte rest).1 = .lineBreak) :
    (rest.drop (Piece.front byte rest).2).count 0x0A + 1 = (byte :: rest).count 0x0A := by
  have cut : byte :: rest = (byte :: rest.take (Piece.front byte rest).2) ++
      rest.drop (Piece.front byte rest).2 := by
    rw [List.cons_append, List.take_append_drop]
  have feed : (byte :: rest.take (Piece.front byte rest).2).count 0x0A = 1 := by
    rcases front_lineBreak isBreak with same | same <;> rw [same] <;> rfl
  conv_rhs => rw [cut, List.count_append, feed]
  exact Nat.add_comm _ _

/-- What is left of the bytes has no more line feeds than there were. -/
theorem count_unread_le (byte : UInt8) (rest : List UInt8) (count : Nat) :
    (rest.drop count).count 0x0A ≤ (byte :: rest).count 0x0A :=
  ((List.drop_sublist _ _).trans (List.sublist_cons_self _ _)).count_le _

/-- The indentation of a line stands on that line, and its lexemes are four spaces. -/
theorem indentation_within {line : Nat} (real : 1 ≤ line ∧ line ≤ last) (bytes : List UInt8) :
    ∀ token ∈ indentation line bytes, token.Within last := by
  intro token member
  rw [List.eq_of_mem_replicate member]
  exact ⟨real, fun _ => by simp [OneLine, indent]⟩

/-- Scanning makes tokens that stand on lines of the source, or fails in a way that can be shown.
    The induction is along the pieces, with the line feeds that are left to bound the lines to
    come. -/
theorem scanLines_prints {line : Nat} {bytes : List UInt8} (starts : 1 ≤ line)
    (ends : line + bytes.count 0x0A ≤ last) :
    Prints last (fun tokens => ∀ token ∈ tokens, token.Within last) (scanLines line bytes) := by
  induction line, bytes using scanLines.induct with
  | case1 line =>
      rw [scanLines]
      exact List.forall_mem_nil _
  | case2 line byte rest unread isGap =>
      rename_i ih
      have fewer : unread.count 0x0A ≤ (byte :: rest).count 0x0A := count_unread_le byte rest _
      simp only [scanLines, isGap]
      exact ih starts (by omega)
  | case3 line byte rest unread isBreak =>
      rename_i ih
      have feed : unread.count 0x0A + 1 = (byte :: rest).count 0x0A := count_lineBreak isBreak
      have fewer := (List.dropWhile_sublist (l := unread) isSpace).count_le 0x0A
      have nextLine : 1 ≤ line + 1 ∧ line + 1 ≤ last := by omega
      simp only [scanLines, isBreak]
      refine (ih nextLine.1 (by omega)).bind fun later inside => ?_
      refine List.forall_mem_cons.mpr ⟨⟨?_, fun noBreak => absurd rfl noBreak⟩,
        List.forall_mem_append.mpr ⟨indentation_within nextLine _, inside⟩⟩
      exact ⟨starts, Nat.le_of_succ_le nextLine.2⟩
  | case4 line byte rest unread kind isLexeme =>
      rename_i ih
      have fewer : unread.count 0x0A ≤ (byte :: rest).count 0x0A := count_unread_le byte rest _
      have noFeed := (front_within byte rest).2 (by simp [isLexeme])
      simp only [scanLines, isLexeme]
      refine (ih starts (by omega)).bind fun later inside => ?_
      exact List.forall_mem_cons.mpr
        ⟨⟨⟨starts, Nat.le_of_add_right_le ends⟩, fun _ => oneLine_decode noFeed⟩, inside⟩
  | case5 line byte rest isOpen =>
      simp only [scanLines, isOpen]
      exact LexicalFault.printable ⟨starts, Nat.le_of_add_right_le ends⟩ (by decide)
  | case6 line byte rest isOpen =>
      have noFeed := (front_within byte rest).2 (by simp [isOpen])
      simp only [scanLines, isOpen]
      exact LexicalFault.printable ⟨starts, Nat.le_of_add_right_le ends⟩
        (LexicalFault.oneLine_danglingNumber (oneLine_decode noFeed))

/-- The same for a whole source, which has one line more than line feeds. -/
theorem scan_prints {source : List UInt8} (ends : 1 + source.count 0x0A ≤ last) :
    Prints last (fun tokens => ∀ token ∈ tokens, token.Within last) (scan source) := by
  unfold scan
  split
  · exact LexicalFault.printable ⟨Nat.le_refl 1, by omega⟩ (by decide)
  · have fewer := (List.dropWhile_sublist (l := source) isSpace).count_le 0x0A
    refine (scanLines_prints (Nat.le_refl 1) (by omega)).bind fun later inside => ?_
    exact List.forall_mem_append.mpr
      ⟨indentation_within ⟨Nat.le_refl 1, by omega⟩ source, inside⟩

/-! ## Layout -/

/-- Block ends stand on the line that they are given, and have no lexeme. -/
theorem closing_within {line : Nat} (real : 1 ≤ line ∧ line ≤ last) (count : Nat) :
    ∀ token ∈ List.replicate count (closeBlock line), token.Within last := by
  intro token member
  rw [List.eq_of_mem_replicate member]
  exact ⟨real, fun _ => by simp [OneLine, closeBlock]⟩

/-- The last line of tokens of the source is a line of the source. Without any token it is the first
    one. -/
theorem lastLine_within {tokens : List Token} (inside : ∀ token ∈ tokens, token.Within last)
    (starts : 1 ≤ last) : 1 ≤ lastLine tokens ∧ lastLine tokens ≤ last := by
  unfold lastLine
  cases found : tokens.getLast? with
  | none => exact ⟨Nat.le_refl 1, starts⟩
  | some token => exact (inside token (List.mem_of_getLast? found)).line

/-- A fault of layout on a line of the source can be shown. -/
theorem LayoutFault.printable (fault : LayoutFault) {line : Nat} (real : 1 ≤ line ∧ line ≤ last) :
    (fault.onLine line).Printable last where
  line := real
  oneLine := by
    refine Failure.oneLine_render ?_ fault.oneLine_message
    exact List.forall_mem_singleton.mpr (by decide)
  phase := .inl rfl

/-- Layout adds tokens on lines of the source only: block ends take the line of the content that
    they stand before. By induction on the lines. -/
theorem ofLines_prints {level : Nat} {lines : List Line}
    (inside : ∀ line ∈ lines, ∀ token ∈ line.all, token.Within last) :
    Prints last (fun layout => ∀ token ∈ layout.tokens, token.Within last)
      (Layout.ofLines level lines) := by
  induction lines generalizing level with
  | nil => exact List.forall_mem_nil _
  | cons line lines ih =>
      rw [List.forall_mem_cons] at inside
      have content : ∀ token ∈ line.content, token.Within last := fun token member =>
        inside.1 token (List.mem_append_left _ (List.mem_of_mem_filter member))
      have kept : ∀ token ∈ line.unindented, token.Within last :=
        List.forall_mem_append.mpr ⟨content, fun token member =>
          inside.1 token (List.mem_append_right _ member)⟩
      unfold Layout.ofLines
      split
      · exact (ih inside.2).bind fun later within => List.forall_mem_append.mpr ⟨kept, within⟩
      · rename_i first others isContent
        have real := (content first (isContent ▸ List.mem_cons_self)).line
        split
        · exact LayoutFault.printable _ real
        · exact (ih inside.2).bind fun later within => List.forall_mem_append.mpr
            ⟨closing_within real _, List.forall_mem_append.mpr ⟨kept, within⟩⟩

/-- The block ends and the line break at the end of a layout stand on its last line. -/
theorem ofTokens_prints {tokens : List Token} (inside : ∀ token ∈ tokens, token.Within last)
    (starts : 1 ≤ last) :
    Prints last (fun layout => ∀ token ∈ layout.tokens, token.Within last)
      (Layout.ofTokens tokens) := by
  have ends := lastLine_within inside starts
  have ofLine : ∀ line ∈ Line.split tokens, ∀ token ∈ line.all, token.Within last := by
    intro line isLine token member
    refine inside token ?_
    rw [← Line.flatMap_split tokens]
    exact List.mem_flatMap.mpr ⟨line, isLine, member⟩
  refine (ofLines_prints ofLine).bind fun layout within => ?_
  refine List.forall_mem_append.mpr ⟨within, List.forall_mem_append.mpr
    ⟨closing_within ends _, List.forall_mem_singleton.mpr ?_⟩⟩
  exact ⟨ends, fun noBreak => absurd rfl noBreak⟩

/-! ## Compiling -/

/-- Each token of one line that stands on a line of the source matches itself. -/
def Matching.within (last : Nat) : Matching where
  token token other := token = other ∧ token.Within last ∧ token.kind ≠ .newline
  line line other := line = other ∧ 1 ≤ line ∧ line ≤ last
  same_kind matched := congrArg Token.kind matched.1
  same_lexeme matched := congrArg Token.lexeme matched.1
  same_line matched := ⟨congrArg Token.line matched.1, matched.2.1.line⟩

/-- A name that is the lexeme of a matched token is on one line. -/
theorem Matching.oneLine_of_spells {name : String} (spelled : (within last).Spells name) :
    OneLine name := by
  rcases spelled with known | ⟨token, other, matched, rfl⟩
  · have own : ∀ name ∈ TypeName.own, OneLine name := by decide
    exact own name known
  · exact matched.2.1.lexeme matched.2.2

/-- Up to layout a source agrees with itself in tokens that stand on its lines, or it fails in a way
    that can be shown. -/
theorem laidOut_prints {source : List UInt8} (ends : 1 + source.count 0x0A ≤ last) :
    Traced.Agree (fun failure _ => failure.Printable last) (Matching.within last).LaidOutAlike
      (laidOut source) (laidOut source) := by
  have scanning : Traced.Agree (fun failure _ => failure.Printable last)
      (fun tokens others => tokens = others ∧ ∀ token ∈ tokens, token.Within last)
      (scanned source) (scanned source) :=
    Traced.agree_bind (scan_prints ends).agree fun tokens others same =>
      Traced.agree_bind (Traced.agree_report _ _) fun _ _ _ => Traced.agree_pure same
  refine Traced.agree_bind scanning ?_
  rintro tokens _ ⟨rfl, inside⟩
  refine Traced.agree_bind (ofTokens_prints inside (by omega)).agree ?_
  rintro layout _ ⟨rfl, within⟩
  refine Traced.agree_bind (Traced.agree_report _ _) fun _ _ _ => Traced.agree_pure ⟨?_, ?_⟩
  · refine (Matching.stretched_self (fun token member noBreak => ?_) fun token member => ?_).loose
    · exact ⟨rfl, within token member, noBreak⟩
    · exact ⟨rfl, (within token member).line⟩
  · exact ⟨rfl, lastLine_within within (by omega)⟩

/-- A failure of parsing blames a token of the source, or the last line, so it can be shown. -/
theorem blamed_printable {failure other : Failure}
    (blamed : Reader.BlamedAlike (Matching.within last) ["parse", "program"] failure other) :
    failure.Printable last := by
  obtain ⟨inner, line, otherLine, fault, rfl, rfl, named, ⟨-, real⟩, shown⟩ := blamed
  refine ⟨real, Failure.oneLine_render ?_ (SyntaxFault.oneLine_message ?_), .inr ⟨inner, rfl⟩⟩
  · have known : ∀ step ∈ Reader.productions, OneLine step := by decide
    refine List.forall_mem_append.mpr ⟨by decide, fun step listed => known step (named listed)⟩
  · intro token found
    exact (shown token found).imp_right fun ⟨_, matched⟩ => matched.2.1.lexeme matched.2.2

/-- A failure of static analysis names lexemes of the program and stands on the line of a leaf, so
    it can be shown, too. -/
theorem faulted_printable {failure other : Failure}
    (faulted : Check.FaultedInside (Matching.within last) ["analyze"] failure other) :
    failure.Printable last := by
  obtain ⟨step, isStep, inner, line, otherLine, fault, rfl, rfl, named, ⟨-, real⟩, names⟩ :=
    faulted
  refine ⟨real, Failure.oneLine_render ?_ (TypingFault.oneLine_message ?_), step, inner, rfl⟩
  · have known : ∀ step ∈ Check.steps, OneLine step := by decide
    exact List.forall_mem_cons.mpr ⟨by decide, List.forall_mem_cons.mpr
      ⟨known step isStep, fun step listed => known step (named listed)⟩⟩
  · exact fun name shown => Matching.oneLine_of_spells (names name shown)

/-- A source that does not compile fails with a diagnostic that points at one of its lines,
    is printed on one line and names the phase that gave up. -/
theorem compile_diagnostic {source : List UInt8} {failure : Failure}
    (failed : (compile source).outcome = .error failure) :
    (1 ≤ failure.diagnostic.line ∧ failure.diagnostic.line ≤ 1 + source.count 0x0A) ∧
      '\n' ∉ failure.render.toList ∧ failure.NamesPhase := by
  have agree := compile_agrees (laidOut_prints (Nat.le_refl (1 + source.count 0x0A)))
    blamed_printable faulted_printable
  obtain ⟨_, -, printable⟩ := agree.outcome_error failed
  exact ⟨printable.line, printable.oneLine, printable.phase⟩

/-- A variable that is not declared, on the second of two lines. -/
theorem compile_diagnostic_undeclared :
    let source := Utf8.encode "import GoType\nprint(x)"
    let failure := Failure.analysis .undeclaredReference
      ⟨["analyze", "call"], 2, (TypingFault.undeclaredVariable "x").message⟩
    (compile source).outcome = .error failure ∧
      (1 ≤ failure.diagnostic.line ∧ failure.diagnostic.line ≤ 1 + source.count 0x0A) ∧
        '\n' ∉ failure.render.toList ∧ failure.NamesPhase := by
  intro source failure
  let word (kind : Kind) (lexeme : String) (line : Nat) : Token := ⟨kind, lexeme, line⟩
  let tokens : List Token :=
    [word .importWord "import" 1, word .identifier "GoType" 1, .newline 1,
      word .print "print" 2, word .leftParen "(" 2, word .identifier "x" 2,
      word .rightParen ")" 2]
  let program : Program :=
    ⟨⟨word .identifier "GoType" 1, none, 1⟩,
      [.call (word .print "print" 2) [.terminal (word .identifier "x" 2)]], []⟩
  have scanned : scan source = .ok tokens := by
    dsimp only [source, tokens, word]
    cbv
  obtain ⟨layout, laid⟩ : ∃ layout, Layout.ofTokens tokens = .ok layout := ⟨_, rfl⟩
  have isProgram : (Program.parse layout.tokens).outcome = .ok program := by
    cases laid
    dsimp only [tokens, program, word]
    cbv
  have undeclared : (program.analyze [] []).outcome = .error failure := rfl
  rcases compile_run (parsed_of_phases scanned laid isProgram) with
    ⟨accepted, -⟩ | ⟨_, _, rejected, failed⟩
  · rw [undeclared] at accepted
    cases accepted
  · rw [Except.error.inj (rejected.symm.trans undeclared)] at failed
    exact ⟨failed, compile_diagnostic failed⟩

end Offside
