import Offside.Proofs.Layout.Numbering
import Offside.Proofs.Layout.Spread
import Offside.Proofs.Source.Agreement
import Offside.Proofs.Source.Lines
import Offside.Proofs.Token.Lineation

/-!
# Layout of the source

Blank lines, comments and spaces at line ends are there for the reader. Putting a blank
line or a line with a comment between two lines, or adding spaces and a comment at the
end of a line, changes neither the Go file of a source nor the reason why there is none;
only the line number of a diagnostic may change.
-/

namespace Offside

open Token

/-- The source with one change of its layout. -/
inductive Relaid (source : List UInt8) : List UInt8 → Prop where
  /-- A blank line, or a line with a comment, before the first line or after a line
      feed. -/
  | insertLine (before after line : List UInt8) (cut : source = before ++ after)
      (starts : before = [] ∨ before.getLast? = some 0x0A) (blank : Trailing line) :
      Relaid source (before ++ (line ++ 0x0A :: after))
  /-- Spaces, a comment or both at the end of a line: at the end of the source, or before a
      line break. -/
  | extendLine (before after blanks : List UInt8) (cut : source = before ++ after)
      (ended : after = [] ∨ ∃ ending rest, after = ending ++ rest ∧ EndsLine before ending)
      (blank : Trailing blanks) :
      Relaid source (before ++ (blanks ++ after))

/-- The failure as it would be reported on another line. -/
def Failure.onLine (line : Nat) : Failure → Failure
  | .lexical diagnostic => .lexical { diagnostic with line := line }
  | .parse diagnostic => .parse { diagnostic with line := line }
  | .analysis rule diagnostic => .analysis rule { diagnostic with line := line }
  | .emission diagnostic => .emission { diagnostic with line := line }

/-! ## Lines of tokens -/

/-- The tokens of one line hold no line break, for scanning makes one only where a line feed is, and
    the line has none. -/
theorem scanLines_inline {line : Nat} {text : List UInt8} {tokens : List Token}
    (noFeed : 0x0A ∉ text) (scanned : scanLines line text = .ok tokens) :
    ∀ token ∈ tokens, token.kind ≠ .newline := by
  induction line, text using scanLines.induct generalizing tokens with
  | case1 line =>
      rw [scanLines] at scanned
      cases scanned
      simp
  | case2 line byte text unread isGap =>
      rename_i ih
      simp only [scanLines, isGap] at scanned
      exact ih (fun member => noFeed (List.mem_cons_of_mem _ (List.mem_of_mem_drop member))) scanned
  | case3 line byte text unread isBreak => exact absurd isBreak (front_inLine noFeed)
  | case4 line byte text unread kind isLexeme =>
      rename_i ih
      simp only [scanLines, isLexeme] at scanned
      obtain ⟨later, scannedLater, same⟩ := Segment.map_ok_iff.mp scanned
      subst same
      refine List.forall_mem_cons.mpr ⟨(Piece.front_inline isLexeme).1, ih ?_ scannedLater⟩
      exact fun member => noFeed (List.mem_cons_of_mem _ (List.mem_of_mem_drop member))
  | case5 line byte text isOpen => simp [scanLines, isOpen] at scanned
  | case6 line byte text isOpen => simp [scanLines, isOpen] at scanned

/-- The tokens of one line hold no line break, those of its indentation in front of them
    included. -/
theorem scanFrom_inline {line : Nat} {text : List UInt8} {tokens : List Token}
    (noFeed : 0x0A ∉ text) (scanned : scanFrom line text = .ok tokens) :
    ∀ token ∈ tokens, token.kind ≠ .newline := by
  obtain ⟨later, scannedLater, same⟩ := Segment.map_ok_iff.mp scanned
  subst same
  refine List.forall_mem_append.mpr ⟨fun token member => ?_, ?_⟩
  · rw [List.eq_of_mem_replicate member]
    simp [Token.indent]
  · exact scanLines_inline
      (fun member => noFeed ((List.dropWhile_suffix isSpace).subset member)) scannedLater

/-- Tokens without a line break are all on one line, which is not ended. -/
theorem split_inline {tokens : List Token} (inline : ∀ token ∈ tokens, token.kind ≠ .newline) :
    Line.split tokens = [⟨tokens, none⟩] := by
  induction tokens with
  | nil => rfl
  | cons token tokens ih =>
      rw [List.forall_mem_cons] at inline
      rw [Line.split, if_neg inline.1, ih inline.2]

/-- A list of tokens is one line, or a line with a line break and further lines. -/
theorem lines_induction {motive : List Token → Prop}
    (last : ∀ tokens, (∀ token ∈ tokens, token.kind ≠ .newline) → motive tokens)
    (line : ∀ tokens ending later, (∀ token ∈ tokens, token.kind ≠ .newline) →
      ending.kind = .newline → motive later → motive (tokens ++ ending :: later))
    (tokens : List Token) : motive tokens := by
  have grown (tokens : List Token) : ∀ first : List Token,
      (∀ token ∈ first, token.kind ≠ .newline) → motive (first ++ tokens) := by
    induction tokens with
    | nil =>
        intro first inline
        rw [List.append_nil]
        exact last first inline
    | cons token tokens ih =>
        intro first inline
        by_cases isBreak : token.kind = .newline
        · exact line first token tokens inline isBreak (ih [] (by simp))
        · have longer := ih (first ++ [token])
            (List.forall_mem_append.mpr ⟨inline, List.forall_mem_singleton.mpr isBreak⟩)
          rwa [List.append_assoc] at longer
  exact grown tokens [] (by simp)

/-- A line is like itself further down, whatever line break it ends with. The tokens keep their
    kinds and lexemes, and only they are compared. -/
theorem like_below (count : Nat) {tokens : List Token} {ending otherEnding : Option Token}
    (inline : ∀ token ∈ tokens, token.kind ≠ .newline) :
    Line.Like ⟨tokens, ending⟩ ⟨tokens.map (below count), otherEnding⟩ where
  content := by
    have contents : Line.content ⟨tokens.map (below count), otherEnding⟩ =
        (Line.content ⟨tokens, ending⟩).map (below count) := List.filter_map
    rw [contents, List.forall₂_map_right_iff]
    exact List.forall₂_same.mpr fun token _ => ⟨rfl, rfl⟩
  level _ := by
    simp only [Line.level, List.countP_map]
    rfl
  inline token member := inline token (List.mem_of_mem_filter member)

/-- Moving tokens down by no line at all leaves them where they are. -/
theorem map_below_zero (tokens : List Token) : tokens.map (below 0) = tokens :=
  List.map_id tokens

/-- A line is like itself with another line break at its end, for it is itself moved down by no
    line. -/
theorem like_refl {tokens : List Token} {ending otherEnding : Option Token}
    (inline : ∀ token ∈ tokens, token.kind ≠ .newline) :
    Line.Like ⟨tokens, ending⟩ ⟨tokens, otherEnding⟩ := by
  have here : Line.Like ⟨tokens, ending⟩ ⟨tokens.map (below 0), otherEnding⟩ :=
    like_below 0 inline
  rwa [map_below_zero] at here

/-- The same tokens some lines further down are spread out the same way, with no lines put in
    between. The induction is on the lines. -/
theorem spread_below (count : Nat) (tokens : List Token) :
    Spread (Line.split tokens) (Line.split (tokens.map (below count))) := by
  have kept {tokens : List Token} (inline : ∀ token ∈ tokens, token.kind ≠ .newline) :
      ∀ token ∈ tokens.map (below count), token.kind ≠ .newline :=
    List.forall_mem_map.mpr inline
  induction tokens using lines_induction with
  | last tokens inline =>
      rw [split_inline inline, split_inline (kept inline)]
      exact .last (like_below count inline) rfl rfl
  | line tokens ending later inline isBreak ih =>
      have otherBreak : (below count ending).kind = .newline := isBreak
      rw [List.map_append, List.map_cons, Line.split_line inline isBreak,
        Line.split_line (kept inline) otherBreak]
      exact .line (like_below count inline) ⟨_, rfl, isBreak⟩ ⟨_, rfl, otherBreak⟩ ih

/-- A list of lines is spread over itself, with nothing put in between and nothing moved. -/
theorem spread_refl (tokens : List Token) : Spread (Line.split tokens) (Line.split tokens) := by
  have here := spread_below 0 tokens
  rwa [map_below_zero] at here

/-- A line in front of lines that are spread may be exchanged for one like it, and the two lists
    with these lines are spread as well. -/
theorem spread_line {first other later others : List Token} {line : Nat}
    (inline : ∀ token ∈ first, token.kind ≠ .newline)
    (otherInline : ∀ token ∈ other, token.kind ≠ .newline)
    (like : Line.Like ⟨first, some (newline line)⟩ ⟨other, some (newline line)⟩)
    (spread : Spread (Line.split later) (Line.split others)) :
    Spread (Line.split (first ++ newline line :: later))
      (Line.split (other ++ newline line :: others)) := by
  rw [Line.split_line inline rfl, Line.split_line otherInline rfl]
  exact .line like ⟨_, rfl, rfl⟩ ⟨_, rfl, rfl⟩ spread

/-- Whole lines may be put in front of lines that are spread, the same on both sides. The induction
    takes them away one by one. -/
theorem spread_whole {lines : List UInt8} (whole : WholeLines lines) {line : Nat}
    {first later others : List Token} (scanned : scanFrom line lines = .ok first)
    (spread : Spread (Line.split later) (Line.split others)) :
    Spread (Line.split (first ++ later)) (Line.split (first ++ others)) := by
  induction whole generalizing line first with
  | nil =>
      rw [scanFrom_nil] at scanned
      cases scanned
      exact spread
  | line noFeed ends _ ih =>
      obtain ⟨here, further, scannedHere, scannedFurther, rfl⟩ :=
        (scanFrom_line_ok_iff noFeed ends).mp scanned
      have inline := scanFrom_inline noFeed scannedHere
      rw [List.append_assoc, List.append_assoc]
      exact spread_line inline inline (like_refl inline) (ih scannedFurther)

/-! ## Changes of the source -/

/-- A line without anything but indentation has no content, so layout leaves nothing of it but its
    line break. -/
theorem content_of_indents {tokens : List Token} (indents : ∀ token ∈ tokens, token.kind = .indent)
    (ending : Option Token) : Line.content ⟨tokens, ending⟩ = [] := by
  refine List.filter_eq_nil_iff.mpr fun token member => ?_
  simp [indents token member]

/-- Blanks at the end of a line make a line that is like it. -/
theorem like_trailing {line : Nat} {text bytes : List UInt8} {tokens : List Token}
    (noFeed : 0x0A ∉ text) (scanned : scanFrom line text = .ok tokens)
    (trailing : Trailing bytes) (ending otherEnding : Option Token) :
    ∃ others, scanFrom line (text ++ bytes) = .ok others ∧
      Line.Like ⟨tokens, ending⟩ ⟨others, otherEnding⟩ := by
  have inline := scanFrom_inline noFeed scanned
  obtain ⟨others, scannedOthers, rfl | ⟨indents, otherIndents⟩⟩ :=
    scanFrom_trailing noFeed scanned trailing
  · exact ⟨others, scannedOthers, like_refl inline⟩
  · refine ⟨others, scannedOthers, ?_, fun nonempty => ?_, fun token member => ?_⟩
    · rw [content_of_indents indents, content_of_indents otherIndents]
      exact .nil
    · exact absurd (content_of_indents indents _) nonempty
    · exact inline token (List.mem_of_mem_filter member)

/-- Blanks and a line feed are the end of a line, where a carriage return at the end of a
    comment belongs to the line break. -/
theorem trailing_lineFeed {text blanks : List UInt8} (plain : text.getLast? ≠ some 0x0D)
    (trailing : Trailing blanks) :
    ∃ shorter ending, (∀ rest, text ++ (blanks ++ 0x0A :: rest) =
        (text ++ shorter) ++ (ending ++ rest)) ∧
      Trailing shorter ∧ EndsLine (text ++ shorter) ending := by
  cases trailing with
  | spaces count =>
      refine ⟨_, [0x0A], fun rest => by simp, .spaces count, .lineFeed ?_⟩
      cases count with
      | zero => simpa using plain
      | succ count => simp [List.getLast?_append, List.getLast?_replicate]
  | comment count comment noFeed =>
      by_cases ended : comment.getLast? = some 0x0D
      · obtain ⟨shorter, rfl⟩ := List.getLast?_eq_some_iff.mp ended
        refine ⟨_, [0x0D, 0x0A], fun rest => by simp, .comment count shorter ?_, .carriageReturn⟩
        exact fun member => noFeed (List.mem_append_left _ member)
      · refine ⟨_, [0x0A], fun rest => by simp, .comment count comment noFeed, .lineFeed ?_⟩
        rw [← List.append_assoc, List.getLast?_append_cons, List.getLast?_cons]
        cases last : comment.getLast? with
        | none => decide
        | some byte => rwa [last] at ended

/-- All bytes are whole lines followed by a text without line feed, which is the last line and has
    not been ended. The induction is from the end. -/
theorem exists_lastLine (bytes : List UInt8) :
    ∃ lines text, bytes = lines ++ text ∧ WholeLines lines ∧ 0x0A ∉ text := by
  induction bytes using List.reverseRecOn with
  | nil => exact ⟨[], [], rfl, .nil, by simp⟩
  | append_singleton bytes byte ih =>
      by_cases isFeed : byte = 0x0A
      · subst isFeed
        exact ⟨bytes ++ [0x0A], [], by simp, wholeLines_of_getLast? (by simp), by simp⟩
      · obtain ⟨lines, text, rfl, whole, noFeed⟩ := ih
        refine ⟨lines, text ++ [byte], by simp, whole, ?_⟩
        simpa [noFeed] using Ne.symm isFeed

/-- A blank line put before lines is scanned to a line without content. The other lines are moved
    down by one and stay as they are. -/
theorem insertLine_spread {line : Nat} {blank rest : List UInt8} {later : List Token}
    (trailing : Trailing blank) (scanned : scanFrom line rest = .ok later) :
    ∃ others, scanFrom line (blank ++ 0x0A :: rest) = .ok others ∧
      Spread (Line.split later) (Line.split others) := by
  have nothing : ([] : List UInt8).getLast? ≠ some 0x0D := by simp
  obtain ⟨shorter, ending, regroup, trailing, ends⟩ := trailing_lineFeed nothing trailing
  obtain ⟨indents, scannedIndents, like⟩ :=
    like_trailing List.not_mem_nil (scanFrom_nil line) trailing none (some (newline line))
  refine ⟨indents ++ newline line :: later.map (below 1), ?_, ?_⟩
  · rw [← List.nil_append (blank ++ _), regroup]
    exact (scanFrom_line_ok_iff trailing.noFeed ends).mpr
      ⟨indents, later.map (below 1), scannedIndents, scanFrom_below scanned 1, rfl⟩
  · rw [Line.split_line (scanFrom_inline trailing.noFeed scannedIndents) rfl]
    exact .blank (List.forall₂_nil_left_iff.mp like.content) ⟨_, rfl, rfl⟩ (spread_below 1 later)

/-- Blanks put at the end of a line give no tokens. Whether the line is the last one or has an end,
    its tokens are the same as before. -/
theorem extendLine_spread {line : Nat} {text blanks after : List UInt8} {tokens : List Token}
    (noFeed : 0x0A ∉ text)
    (ended : after = [] ∨ ∃ ending rest, after = ending ++ rest ∧ EndsLine text ending)
    (trailing : Trailing blanks) (scanned : scanFrom line (text ++ after) = .ok tokens) :
    ∃ others, scanFrom line (text ++ (blanks ++ after)) = .ok others ∧
      Spread (Line.split tokens) (Line.split others) := by
  have longer {blanks : List UInt8} (trailing : Trailing blanks) : 0x0A ∉ text ++ blanks := by
    rw [List.mem_append, not_or]
    exact ⟨noFeed, trailing.noFeed⟩
  rcases ended with rfl | ⟨ending, rest, rfl, ends⟩
  · rw [List.append_nil] at scanned ⊢
    obtain ⟨others, scannedOthers, like⟩ := like_trailing noFeed scanned trailing none none
    refine ⟨others, scannedOthers, ?_⟩
    rw [split_inline (scanFrom_inline noFeed scanned),
      split_inline (scanFrom_inline (longer trailing) scannedOthers)]
    exact .last like rfl rfl
  · obtain ⟨first, later, scannedFirst, scannedLater, rfl⟩ :=
      (scanFrom_line_ok_iff noFeed ends).mp scanned
    -- the blanks before the break, apart from a carriage return that belongs to it
    obtain ⟨shorter, otherEnding, regroup, shorterTrailing, otherEnds⟩ :
        ∃ shorter otherEnding, text ++ (blanks ++ (ending ++ rest)) =
          (text ++ shorter) ++ (otherEnding ++ rest) ∧ Trailing shorter ∧
            EndsLine (text ++ shorter) otherEnding := by
      cases ends with
      | carriageReturn => exact ⟨blanks, _, by simp, trailing, .carriageReturn⟩
      | lineFeed plain =>
          obtain ⟨shorter, otherEnding, regroup, shorterTrailing, otherEnds⟩ :=
            trailing_lineFeed plain trailing
          exact ⟨shorter, otherEnding, regroup rest, shorterTrailing, otherEnds⟩
    obtain ⟨other, scannedOther, like⟩ := like_trailing noFeed scannedFirst shorterTrailing
      (some (newline line)) (some (newline line))
    refine ⟨other ++ newline line :: later, ?_, ?_⟩
    · rw [regroup]
      exact (scanFrom_line_ok_iff (longer shorterTrailing) otherEnds).mpr
        ⟨other, later, scannedOther, scannedLater, rfl⟩
    · exact spread_line (scanFrom_inline noFeed scannedFirst)
        (scanFrom_inline (longer shorterTrailing) scannedOther) like (spread_refl later)

/-- The tokens of a source after a change of its layout: those of the source, with a blank
    line among the lines or with other indentation on a blank line. -/
theorem relaid_spread {source other : List UInt8} {tokens : List Token}
    (scanned : scan source = .ok tokens) (relaid : Relaid source other) :
    ∃ others, scan other = .ok others ∧ Spread (Line.split tokens) (Line.split others) := by
  have nonempty : source ≠ [] := by
    rintro rfl
    cases scanned
  rw [scan_eq_scanFrom nonempty] at scanned
  cases relaid with
  | insertLine before after line cut starts blank =>
      subst cut
      have whole : WholeLines before := by
        rcases starts with rfl | last
        · exact .nil
        · exact wholeLines_of_getLast? last
      obtain ⟨first, later, scannedFirst, scannedLater, rfl⟩ :=
        (scanFrom_append_ok_iff whole).mp scanned
      obtain ⟨others, scannedOthers, spread⟩ := insertLine_spread blank scannedLater
      refine ⟨first ++ others, ?_, spread_whole whole scannedFirst spread⟩
      rw [scan_eq_scanFrom (by simp)]
      exact (scanFrom_append_ok_iff whole).mpr ⟨first, others, scannedFirst, scannedOthers, rfl⟩
  | extendLine before after blanks cut ended blank =>
      subst cut
      obtain ⟨lines, text, rfl, whole, noFeed⟩ := exists_lastLine before
      have endedText : after = [] ∨ ∃ ending rest, after = ending ++ rest ∧
          EndsLine text ending := by
        rcases ended with empty | ⟨ending, rest, same, ends⟩
        · exact .inl empty
        · exact .inr ⟨ending, rest, same, ends.suffix (List.suffix_append _ _)⟩
      rw [List.append_assoc] at scanned nonempty ⊢
      obtain ⟨first, later, scannedFirst, scannedLater, rfl⟩ :=
        (scanFrom_append_ok_iff whole).mp scanned
      obtain ⟨others, scannedOthers, spread⟩ :=
        extendLine_spread noFeed endedText blank scannedLater
      refine ⟨first ++ others, ?_, spread_whole whole scannedFirst spread⟩
      rw [scan_eq_scanFrom (by simp_all)]
      exact (scanFrom_append_ok_iff whole).mpr ⟨first, others, scannedFirst, scannedOthers, rfl⟩

/-! ## Compiling -/

/-- Sources whose lines are spread are laid out alike. Where one cannot be, neither can the other,
    for the same reason on a line of its own. -/
theorem laidOut_spread {source other : List UInt8} {tokens others : List Token}
    (scannedSource : scan source = .ok tokens) (scannedOther : scan other = .ok others)
    (spread : Spread (Line.split tokens) (Line.split others))
    {failures : Failure → Failure → Prop}
    (misplaced : ∀ fault line otherLine,
      failures (LayoutFault.onLine fault line) (LayoutFault.onLine fault otherLine)) :
    Traced.Agree failures Matching.anyLine.LaidOutAlike (laidOut source) (laidOut other) := by
  have scanning : Traced.Agree failures (fun list otherList => list = tokens ∧ otherList = others)
      (scanned source) (scanned other) := by
    unfold scanned
    rw [scannedSource, scannedOther]
    exact Traced.agree_bind (Traced.agree_pure ⟨rfl, rfl⟩) fun list otherList lists =>
      Traced.agree_bind (Traced.agree_report _ _) fun _ _ _ => Traced.agree_pure lists
  refine Traced.agree_bind scanning ?_
  rintro _ _ ⟨rfl, rfl⟩
  rcases ofTokens_spread spread with ⟨layout, otherLayout, laid, otherLaid, loose⟩ |
    ⟨fault, line, otherLine, rejected, otherRejected⟩
  · rw [laid, otherLaid]
    exact Traced.agree_bind (Traced.agree_pure ⟨loose, trivial⟩) fun list otherList lists =>
      Traced.agree_bind (Traced.agree_report _ _) fun _ _ _ => Traced.agree_pure lists
  · rw [rejected, otherRejected]
    exact fun _ _ => .error (misplaced fault line otherLine)

/-- A source that can be scanned has the same Go file after every change of its layout, and
    if it has none, the same failure up to the line it is reported on. -/
theorem compile_relaid {source other : List UInt8} {tokens : List Token}
    (scanned : scan source = .ok tokens) (relaid : Relaid source other) :
    (∀ text, (compile other).outcome = .ok text ↔ (compile source).outcome = .ok text) ∧
      ∀ failure, (compile source).outcome = .error failure →
        ∃ line, (compile other).outcome = .error (failure.onLine line) := by
  obtain ⟨others, scannedOther, spread⟩ := relaid_spread scanned relaid
  have agree : Traced.Agree (fun failure otherFailure => ∃ line, otherFailure = failure.onLine line)
      Eq (compile source) (compile other) := by
    refine compile_agrees (laidOut_spread scanned scannedOther spread ?_) ?_ ?_
    · exact fun fault line otherLine => ⟨otherLine, rfl⟩
    · rintro _ _ ⟨inner, line, otherLine, fault, rfl, rfl, -⟩
      exact ⟨otherLine, rfl⟩
    · rintro _ _ ⟨name, known, inner, line, otherLine, fault, rfl, rfl, -⟩
      exact ⟨otherLine, rfl⟩
  refine ⟨fun text => (agree.outcome_ok_iff text).symm, fun failure failed => ?_⟩
  obtain ⟨_, otherFailed, line, rfl⟩ := agree.outcome_error failed
  exact ⟨line, otherFailed⟩

/-- A comment after the header of a loop, with a carriage return at its end that becomes
    part of the line break. -/
theorem compile_relaid_comment :
    let word (kind : Kind) (lexeme : String) (line : Nat) : Token := ⟨kind, lexeme, line⟩
    let before := Utf8.encode "import GoType\nwhile True:"
    let after := Utf8.encode "\n    print(1)\n"
    let blanks := Utf8.encode "  # on\r"
    let tokens : List Token :=
      [word .importWord "import" 1, word .identifier "GoType" 1, .newline 1,
        word .whileWord "while" 2, word .boolLiteral "True" 2, word .colon ":" 2, .newline 2,
        .indent 3, word .print "print" 3, word .leftParen "(" 3, word .intLiteral "1" 3,
        word .rightParen ")" 3, .newline 3]
    scan (before ++ after) = .ok tokens ∧
      Relaid (before ++ after) (before ++ (blanks ++ after)) ∧
      ∃ text, (compile (before ++ after)).outcome = .ok text ∧
        (compile (before ++ (blanks ++ after))).outcome = .ok text := by
  intro word before after blanks tokens
  have scanned : scan (before ++ after) = .ok tokens := by
    dsimp only [before, after, tokens, word]
    cbv
  have blank : Trailing blanks := by
    have bytes : blanks = List.replicate 2 0x20 ++ 0x23 :: [0x20, 0x6F, 0x6E, 0x0D] := by
      dsimp only [blanks]
      cbv
    rw [bytes]
    exact .comment 2 _ (by decide)
  have relaid : Relaid (before ++ after) (before ++ (blanks ++ after)) := by
    refine .extendLine before after blanks rfl (.inr ⟨[0x0A], after.tail, ?_, .lineFeed ?_⟩) blank
    · dsimp only [after]
      cbv
    · have colon : before.getLast? = some 0x3A := by
        dsimp only [before]
        cbv
      rw [colon]
      decide
  let program : Program :=
    ⟨⟨word .identifier "GoType" 1, none, 1⟩,
      [.whileLoop (word .whileWord "while" 2) ⟨⟨word .boolLiteral "True" 2, none⟩, none⟩
        ⟨2, [.call (word .print "print" 3) [.terminal (word .intLiteral "1" 3)]]⟩], []⟩
  obtain ⟨layout, laid⟩ : ∃ layout, Layout.ofTokens tokens = .ok layout := ⟨_, rfl⟩
  have isProgram : (Program.parse layout.tokens).outcome = .ok program := by
    cases laid
    dsimp only [tokens, program, word]
    cbv
  have accepted : (program.analyze [] []).outcome = .ok () := by
    dsimp only [program, word]
    cbv
  obtain ⟨-, compiled⟩ | ⟨_, _, rejected, -⟩ :=
    compile_run (parsed_of_phases scanned laid isProgram)
  · exact ⟨scanned, relaid, _, compiled, ((compile_relaid scanned relaid).1 _).mpr compiled⟩
  · rw [accepted] at rejected
    cases rejected

end Offside
