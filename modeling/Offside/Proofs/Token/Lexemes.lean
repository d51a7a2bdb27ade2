import Offside.Layout
import Offside.Proofs.Text.Decoding
import Offside.Proofs.Token.Segmentation
import Offside.Proofs.Token.Spelling

/-!
# Texts of scanned tokens

Every token of a source has a text that its kind may have: the segments that scanning
cuts off are spelled as their kinds demand, also where the source is no UTF-8. The
tokens that have no spelling are line breaks, indentation, block ends and illegal
bytes, and none of these is a leaf of a syntax tree. Layout drops and adds only such
tokens.
-/

namespace Offside

/-- The token is spelled as its kind demands, or it is of a kind without a spelling. -/
def Token.Genuine (token : Token) : Prop :=
  token.kind ∈ [Kind.illegal, .newline, .indent, .closeBlock] ∨ token.Spelled

/-- A genuine token of any other kind is spelled, and those other kinds are all that a syntax tree
    has at its leaves. -/
theorem Token.Genuine.spelled {token : Token} (genuine : token.Genuine)
    (isLeaf : token.kind ∉ [Kind.illegal, .newline, .indent, .closeBlock]) : token.Spelled :=
  genuine.resolve_left isLeaf

/-! ## Segments -/

/-- A kind with a single text is spelled by that text. Names, numbers, strings and truth values are
    not among these kinds, so the general demand on the kind is the one that applies. -/
theorem spelled_of_spelling {kind : Kind} {text : String}
    (spelled : kind.spelling? = some text) (line : Nat) : Token.Spelled ⟨kind, text, line⟩ := by
  cases kind <;> first
    | exact spelled
    | cases spelled

/-- A byte below 128 is a byte of its own in the encoding of texts. -/
theorem lt_of_ascii {byte : UInt8} (ascii : (byteChar byte).toNat < 128) : byte < 0x80 := by
  rw [Segment.toNat_byteChar] at ascii
  exact UInt8.lt_iff_toNat_lt.mpr ascii

/-- Bytes of the first 128 decode to themselves, so the text of a word or a number is made of its
    bytes, one character for each. -/
theorem decode_ascii {bytes : List UInt8}
    (ascii : ∀ byte ∈ bytes, (byteChar byte).toNat < 128) :
    Utf8.decode bytes = String.ofList (bytes.map byteChar) := by
  rw [Utf8.decode, Utf8.decodeChars_ascii fun byte member => lt_of_ascii (ascii byte member)]
  rfl

/-- Words are written with the first 128 characters only, so decoding leaves them as they are. -/
theorem ascii_of_wordByte {byte : UInt8} (isWord : WordByte byte) :
    (byteChar byte).toNat < 128 := by
  rcases isWord with alphanumeric | underscore
  · exact ascii_of_alphanum alphanumeric
  · rw [underscore]
    decide

/-- The bytes of numbers are characters of the first 128, too. A point and an underscore are allowed
    in them beside the digits. -/
theorem ascii_of_numberByte {byte : UInt8} (isNumber : NumberByte byte) :
    (byteChar byte).toNat < 128 := by
  rcases isNumber with digit | underscore | point
  · exact ascii_of_alphanum (by simp [Char.isAlphanum, digit])
  · rw [underscore]
    decide
  · rw [point]
    decide

/-- A word is spelled as the kind that it is classified as. -/
theorem spelled_word {word : String} (shape : WordShape word.toList) (line : Nat) :
    Token.Spelled ⟨Segment.kindOfWord word, word, line⟩ := by
  rw [Segment.kindOfWord]
  cases found : Segment.words.lookup word with
  | some kind =>
      have every : ∀ entry ∈ Segment.words, entry.2.spelling? = some entry.1 ∨
          entry.2 = .boolLiteral ∧ (entry.1 = "True" ∨ entry.1 = "False") := by decide
      obtain ⟨before, after, listed, -⟩ := List.lookup_eq_some_iff.mp found
      rcases every (word, kind) (by simp [listed]) with spelled | ⟨rfl, isTruth⟩
      · exact spelled_of_spelling spelled line
      · exact isTruth
  | none =>
      refine ⟨shape, fun isReserved => ?_⟩
      have reserved : Token.reserved = Segment.words.map Prod.fst := by decide
      rw [reserved] at isReserved
      obtain ⟨entry, listed, same⟩ := List.mem_map.mp isReserved
      have differs := List.lookup_eq_none_iff.mp found entry listed
      simp [same] at differs

/-- A run of number bytes between two digits has the shape of a number. The induction moves along
    the run and keeps its last byte in sight, which is the one that has to be a digit. -/
theorem numberShape_run {first : UInt8} {run : List UInt8}
    (digit : (byteChar first).isDigit = true) (inside : ∀ byte ∈ run, NumberByte byte)
    (closed : (byteChar (run.getLastD first)).isDigit = true) :
    NumberShape ((first :: run).map byteChar) := by
  have last (first : UInt8) (run : List UInt8) :
      (run.map byteChar).getLastD (byteChar first) = byteChar (run.getLastD first) := by
    induction run generalizing first with
    | nil => rfl
    | cons second run ih => rw [List.map_cons, List.getLastD_cons, List.getLastD_cons, ih]
  refine ⟨byteChar first, run.map byteChar, rfl, digit, ?_, ?_⟩
  · intro char member
    obtain ⟨byte, isRun, rfl⟩ := List.mem_map.mp member
    exact inside byte isRun
  · rwa [last]

/-- A letter with a run of word bytes after it has the shape of a word. -/
theorem wordShape_run {first : UInt8} {run : List UInt8}
    (letter : (byteChar first).isAlpha = true) (inside : ∀ byte ∈ run, WordByte byte) :
    WordShape ((first :: run).map byteChar) := by
  refine ⟨byteChar first, run.map byteChar, rfl, letter, ?_⟩
  intro char member
  obtain ⟨byte, isRun, rfl⟩ := List.mem_map.mp member
  exact inside byte isRun

/-- A string literal keeps its quotes, and no quote or line break comes out of its
    bytes. -/
theorem stringShape_decode {body : List UInt8}
    (inside : ∀ byte ∈ body, byte ≠ 0x22 ∧ byte ≠ 0x0A ∧ byte ≠ 0x0D) :
    StringShape (Utf8.decode (0x22 :: (body ++ [0x22]))).toList := by
  have ascii : (0x22 : UInt8) < 0x80 := by decide
  have quote : Utf8.decodeChars [0x22] = ['"'] := by
    rw [Utf8.decodeChars_cons, Utf8.front_ascii ascii, List.drop_nil, Utf8.decodeChars]
    rfl
  have absent {char : Char} (member : char ∈ Utf8.decodeChars body) (byte : UInt8)
      (outside : byte ∉ body) (small : (byteChar byte).toNat < 128)
      (notNull : byteChar byte ≠ '\x00') : char ≠ byteChar byte := by
    rintro rfl
    obtain ⟨found, isBody, same⟩ := Utf8.mem_of_mem_decodeChars member small notNull
    exact outside (Segment.byteChar_inj.mp same ▸ isBody)
  refine ⟨Utf8.decodeChars body, ?_, fun char member => ⟨?_, ?_, ?_⟩⟩
  · rw [Utf8.decode, String.toList_ofList, Utf8.decodeChars_cons, Utf8.front_ascii ascii,
      List.drop_zero, Utf8.decodeChars_append ascii, quote]
    rfl
  · exact absent member 0x22 (fun isBody => (inside _ isBody).1 rfl) (by decide) (by decide)
  · exact absent member 0x0A (fun isBody => (inside _ isBody).2.1 rfl) (by decide) (by decide)
  · exact absent member 0x0D (fun isBody => (inside _ isBody).2.2 rfl) (by decide) (by decide)

/-- A segment with a token is spelled as the kind of the token, unless it is illegal. -/
theorem lexeme_spelled {kind : Kind} {bytes rest : List UInt8}
    (longest : Segment.Longest (.lexeme kind bytes) rest) (line : Nat) :
    kind = .illegal ∨ Token.Spelled ⟨kind, Utf8.decode bytes, line⟩ := by
  cases longest with
  | pair first second kind rest listed =>
      have every : ∀ entry ∈ Segment.pairs, entry.1.toNat < 128 ∧ entry.2.1.toNat < 128 ∧
          entry.2.2.spelling? = some (String.ofList [entry.1, entry.2.1]) := by decide
      obtain ⟨firstAscii, secondAscii, spelled⟩ := every _ listed
      rw [decode_ascii (by simpa using ⟨firstAscii, secondAscii⟩)]
      exact .inr (spelled_of_spelling spelled line)
  | symbol byte kind rest listed alone =>
      have every : ∀ entry ∈ Segment.symbols, entry.1.toNat < 128 ∧
          entry.2.spelling? = some (String.ofList [entry.1]) := by decide
      obtain ⟨ascii, spelled⟩ := every _ listed
      rw [decode_ascii (by simpa using ascii)]
      exact .inr (spelled_of_spelling spelled line)
  | string body rest inside => exact .inr (stringShape_decode inside)
  | number first run rest digit inside closed whole =>
      have ascii : ∀ byte ∈ first :: run, (byteChar byte).toNat < 128 := by
        intro byte member
        rcases List.mem_cons.mp member with rfl | isRun
        · exact ascii_of_numberByte (.inl digit)
        · exact ascii_of_numberByte (inside byte isRun)
      rw [decode_ascii ascii]
      have shape := numberShape_run digit inside closed
      rw [← String.toList_ofList (l := (first :: run).map byteChar)] at shape
      exact .inr shape
  | word first run rest letter inside whole =>
      have ascii : ∀ byte ∈ first :: run, (byteChar byte).toNat < 128 := by
        intro byte member
        rcases List.mem_cons.mp member with rfl | isRun
        · exact ascii_of_wordByte (.inl (by simp [Char.isAlphanum, letter]))
        · exact ascii_of_wordByte (inside byte isRun)
      rw [decode_ascii ascii]
      have shape := wordShape_run letter inside
      rw [← String.toList_ofList (l := (first :: run).map byteChar)] at shape
      exact .inr (spelled_word shape line)
  | illegal byte rest => exact .inl rfl

/-- The token of a segment is genuine. It is illegal, or spelled as its kind demands. -/
theorem lexeme_genuine {kind : Kind} {bytes rest : List UInt8}
    (longest : Segment.Longest (.lexeme kind bytes) rest) (line : Nat) :
    Token.Genuine ⟨kind, Utf8.decode bytes, line⟩ := by
  rcases lexeme_spelled longest line with rfl | spelled
  · exact .inl (by simp)
  · exact .inr spelled

/-! ## Phases -/

/-- The tokens of segments are genuine, by induction on the segments. Gaps have no token, and
    indentation and line breaks need no spelling. -/
theorem tokens_genuine {start : Bool} {segments : List Segment}
    (cut : Segment.Cut start segments) (line : Nat) :
    ∀ token ∈ Segment.tokens line segments, token.Genuine := by
  induction segments generalizing start line with
  | nil => simp [Segment.tokens]
  | cons segment segments ih =>
      obtain ⟨here, cut⟩ := cut
      cases segment with
      | indent =>
          exact List.forall_mem_cons.mpr ⟨.inl (by simp [Token.indent]), ih cut line⟩
      | blank bytes => exact ih cut line
      | lineBreak bytes =>
          exact List.forall_mem_cons.mpr ⟨.inl (by simp [Token.newline]), ih cut (line + 1)⟩
      | lexeme kind bytes =>
          refine List.forall_mem_cons.mpr ⟨?_, ih cut line⟩
          rcases here with spaces | longest
          · cases spaces
          · exact lexeme_genuine longest line

/-- All tokens of a source that is scanned are genuine, because they are those of the segments that
    the source is cut into. -/
theorem scan_genuine {source : List UInt8} {tokens : List Token}
    (scanned : Token.scan source = .ok tokens) : ∀ token ∈ tokens, token.Genuine := by
  by_cases nonempty : source = []
  · subst nonempty
    cases scanned
  · obtain ⟨segments, -, cut, rfl⟩ := (Segment.scan_iff nonempty tokens).mp scanned
    exact tokens_genuine cut 1

/-- The block ends that layout adds are genuine. They have a kind without a spelling. -/
theorem closing_genuine (count line : Nat) :
    ∀ token ∈ List.replicate count (Token.closeBlock line), token.Genuine := by
  intro token member
  rw [List.eq_of_mem_replicate member]
  exact .inl (by simp [Token.closeBlock])

/-- Lines of genuine tokens are laid out to genuine tokens, line by line: each line keeps its
    tokens, and only block ends and a line break are put around them. -/
theorem ofLines_genuine {level : Nat} {lines : List Line} {layout : Layout}
    (laidOut : Layout.ofLines level lines = .ok layout)
    (genuine : ∀ line ∈ lines, ∀ token ∈ line.all, token.Genuine) :
    ∀ token ∈ layout.tokens, token.Genuine := by
  induction lines generalizing level layout with
  | nil =>
      cases laidOut
      simp
  | cons line lines ih =>
      have kept : ∀ token ∈ line.unindented, token.Genuine := by
        intro token member
        refine genuine line (by simp) token ?_
        rcases List.mem_append.mp member with content | ending
        · exact List.mem_append_left _ (List.mem_of_mem_filter content)
        · exact List.mem_append_right _ ending
      have others := fun other member => genuine other (List.mem_cons_of_mem line member)
      unfold Layout.ofLines at laidOut
      split at laidOut
      · cases laid : Layout.ofLines level lines with
        | error failure =>
            rw [laid] at laidOut
            cases laidOut
        | ok later =>
            rw [laid] at laidOut
            cases laidOut
            exact List.forall_mem_append.mpr ⟨kept, ih laid others⟩
      · split at laidOut
        · cases laidOut
        · cases laid : Layout.ofLines line.level lines with
          | error failure =>
              rw [laid] at laidOut
              cases laidOut
          | ok later =>
              rw [laid] at laidOut
              cases laidOut
              exact List.forall_mem_append.mpr ⟨closing_genuine _ _,
                List.forall_mem_append.mpr ⟨kept, ih laid others⟩⟩

/-- Layout only adds line breaks and block ends, so what it makes of genuine tokens is genuine. -/
theorem layout_genuine {tokens : List Token} {layout : Layout}
    (laidOut : Layout.ofTokens tokens = .ok layout) (genuine : ∀ token ∈ tokens, token.Genuine) :
    ∀ token ∈ layout.tokens, token.Genuine := by
  have ofLine : ∀ line ∈ Line.split tokens, ∀ token ∈ line.all, token.Genuine := by
    intro line isLine token member
    refine genuine token ?_
    rw [← Line.flatMap_split tokens]
    exact List.mem_flatMap.mpr ⟨line, isLine, member⟩
  unfold Layout.ofTokens at laidOut
  cases laid : Layout.ofLines 0 (Line.split tokens) with
  | error failure =>
      rw [laid] at laidOut
      cases laidOut
  | ok lines =>
      rw [laid] at laidOut
      cases laidOut
      refine List.forall_mem_append.mpr ⟨ofLines_genuine laid ofLine,
        List.forall_mem_append.mpr ⟨closing_genuine _ _, ?_⟩⟩
      simp [Token.Genuine, Token.newline]

end Offside
