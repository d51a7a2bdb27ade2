import Offside.Proofs.Go.Rows
import Offside.Proofs.Token.Segmentation
import Offside.Proofs.Token.Spelling

/-!
# Reading rows back

Different rows have different texts. Two words never stand side by side, an operator is
followed by a blank, and a string literal is ended by the first quote in it, so the part
at the front of a text can be cut off without knowing the others. A line has no line
break in it, and its tabs are those in front of the first part.
-/

namespace Offside.Go

namespace Part

/-- The marks that anything may follow. -/
def delimiters : List String :=
  ["(", ")", ",", ";"]

/-- The marks that only a blank may follow. -/
def operators : List String :=
  ["=", ":=", "<", "++", "\x7b", "\x7d", "+", "-", "*", "/", "%", "==", "!=", ">", ">=", "<="]

/-- Letters, digits, underscores and points stand in words that are not quoted. -/
def isWordChar (char : Char) : Bool :=
  char.isAlphanum || char == '_' || char == '.'

/-- The text of a word: a run of such characters, or a string literal. -/
def WordText (text : List Char) : Prop :=
  text ≠ [] ∧ (∀ char ∈ text, isWordChar char = true) ∨ StringShape text

/-- The text is one that the part may have. -/
def Valid : Part → Prop
  | word text => WordText text.toList
  | mark text => text ∈ delimiters ∨ text ∈ operators
  | gap => True

/-- The second part may follow the first. -/
def MayPrecede : Part → Part → Prop
  | word _, word _ => False
  | mark text, next => text ∈ delimiters ∨ next = gap
  | _, _ => True

/-- Parts whose text can be read back. -/
def Legible (parts : List Part) : Prop :=
  (∀ part ∈ parts, part.Valid) ∧ parts.IsChain MayPrecede

/-- The part at the front of a text, and the text after it. -/
def front : List Char → Option (Part × List Char)
  | [] => none
  | char :: rest =>
      if char = ' ' then some (gap, rest)
      else if char = '"' then
        let body := rest.takeWhile (· != '"')
        some (word (String.ofList ('"' :: (body ++ ['"']))), (rest.dropWhile (· != '"')).drop 1)
      else if isWordChar char then
        some (word (String.ofList (char :: rest.takeWhile isWordChar)), rest.dropWhile isWordChar)
      else if char ∈ ['(', ')', ',', ';'] then some (mark (String.ofList [char]), rest)
      else
        some (mark (String.ofList (char :: rest.takeWhile (· != ' '))), rest.dropWhile (· != ' '))

/-- No mark starts with a blank, a quote or a character of a word. -/
theorem mark_first {text : String} (listed : text ∈ delimiters ∨ text ∈ operators) :
    ∃ char rest, text.toList = char :: rest ∧ char ≠ ' ' ∧ char ≠ '"' ∧ isWordChar char = false := by
  have every : ∀ text ∈ delimiters ++ operators, text.toList.head?.any
      (fun char => char != ' ' && char != '"' && !isWordChar char) = true := by decide
  have plain := every text (List.mem_append.mpr listed)
  cases chars : text.toList with
  | nil => simp [chars] at plain
  | cons char rest =>
      simp only [chars, List.head?_cons, Option.any_some, Bool.and_eq_true, bne_iff_ne,
        Bool.not_eq_true'] at plain
      exact ⟨char, rest, rfl, plain.1.1, plain.1.2, plain.2⟩

/-- What follows a word does not continue it, for two words never stand side by side and no mark has
    letters in it. -/
theorem after_word {parts : List Part} {text : String} (legible : Legible (word text :: parts)) :
    ∀ char ∈ (textAll parts).toList.head?, isWordChar char = false := by
  cases parts with
  | nil => simp [textAll]
  | cons next parts =>
      obtain ⟨valid, chain⟩ := legible
      have apart := (List.isChain_cons_cons.mp chain).1
      cases next with
      | word other => exact absurd apart id
      | gap => simp [textAll, Part.text, show isWordChar ' ' = false by decide]
      | mark other =>
          obtain ⟨first, rest, chars, -, -, plain⟩ := mark_first (valid (mark other) (by simp))
          simpa [textAll, Part.text, chars] using plain

/-- What follows an operator is a blank, so the operator ends where the blank is. -/
theorem after_operator {parts : List Part} {text : String} (listed : text ∉ delimiters)
    (legible : Legible (mark text :: parts)) :
    ∀ char ∈ (textAll parts).toList.head?, (char != ' ') = false := by
  cases parts with
  | nil => simp [textAll]
  | cons next parts =>
      have apart := (List.isChain_cons_cons.mp legible.2).1
      obtain rfl : next = gap := apart.resolve_left listed
      simp [textAll, Part.text]

/-- The first part of a text is cut off at its front. -/
theorem front_textAll {part : Part} {parts : List Part} (legible : Legible (part :: parts)) :
    front (textAll (part :: parts)).toList = some (part, (textAll parts).toList) := by
  have valid := legible.1 part (by simp)
  rw [textAll, String.toList_append]
  cases part with
  | gap => simp [Part.text, front]
  | word text =>
      rcases valid with ⟨nonempty, inside⟩ | ⟨body, quoted, inside⟩
      · obtain ⟨char, rest, chars⟩ := List.exists_cons_of_ne_nil nonempty
        rw [chars, List.forall_mem_cons] at inside
        have notBlank : char ≠ ' ' := by
          rintro rfl
          exact absurd inside.1 (by decide)
        have notQuote : char ≠ '"' := by
          rintro rfl
          exact absurd inside.1 (by decide)
        obtain ⟨taken, dropped⟩ := Segment.takeWhile_run inside.2 (after_word legible)
        simp only [Part.text, chars, List.cons_append, front, notBlank, notQuote, if_false, inside.1,
          if_true, taken, dropped]
        rw [← chars, String.ofList_toList]
      · have inBody : ∀ char ∈ body, (char != '"') = true := by
          intro char member
          simpa using (inside char member).1
        have closed : ∀ next ∈ ('"' :: (textAll parts).toList).head?, (next != '"') = false := by
          simp
        obtain ⟨taken, dropped⟩ := Segment.takeWhile_run inBody closed
        simp only [Part.text, quoted, List.cons_append, List.append_assoc, List.nil_append, front,
          taken, dropped]
        rw [← quoted, String.ofList_toList]
        rfl
  | mark text =>
      obtain ⟨char, rest, chars, notBlank, notQuote, noWord⟩ := mark_first valid
      by_cases listed : text ∈ delimiters
      · have every : ∀ text ∈ delimiters, text.toList.tail = [] ∧
            text.toList.head?.all (· ∈ ['(', ')', ',', ';']) = true := by decide
        obtain ⟨single, isDelimiter⟩ := every text listed
        rw [chars] at single isDelimiter
        obtain rfl : rest = [] := single
        rw [List.head?_cons, Option.all_some, decide_eq_true_eq] at isDelimiter
        simp only [Part.text, chars, List.cons_append, List.nil_append, front, notBlank, notQuote,
          if_false, noWord, Bool.false_eq_true, isDelimiter, if_true]
        rw [← chars, String.ofList_toList]
      · have every : ∀ text ∈ operators, text.toList.all (· != ' ') = true ∧
            text.toList.head?.all (· ∉ ['(', ')', ',', ';']) = true := by decide
        obtain ⟨noBlank, notDelimiter⟩ := every text (valid.resolve_left listed)
        rw [chars] at notDelimiter noBlank
        rw [List.head?_cons, Option.all_some, decide_eq_true_eq] at notDelimiter
        rw [List.all_cons, Bool.and_eq_true, List.all_eq_true] at noBlank
        obtain ⟨taken, dropped⟩ := Segment.takeWhile_run noBlank.2 (after_operator listed legible)
        simp only [Part.text, chars, List.cons_append, front, notBlank, notQuote, if_false, noWord,
          Bool.false_eq_true, notDelimiter, taken, dropped]
        rw [← chars, String.ofList_toList]

/-- Legible parts with the same text are the same parts. The induction cuts off the part at the
    front, which the text shows. -/
theorem textAll_inj {parts others : List Part} (legible : Legible parts)
    (otherLegible : Legible others) (same : textAll parts = textAll others) : parts = others := by
  have later {part : Part} {parts : List Part} (legible : Legible (part :: parts)) :
      Legible parts :=
    ⟨fun other member => legible.1 other (List.mem_cons_of_mem part member), legible.2.tail⟩
  induction parts generalizing others with
  | nil =>
      cases others with
      | nil => rfl
      | cons other others =>
          have read := front_textAll otherLegible
          rw [← same] at read
          cases read
  | cons part parts ih =>
      have read := front_textAll legible
      cases others with
      | nil =>
          rw [same] at read
          cases read
      | cons other others =>
          rw [same, front_textAll otherLegible, Option.some.injEq, Prod.mk.injEq] at read
          obtain ⟨rfl, sameRest⟩ := read
          rw [ih (later legible) (later otherLegible) (String.toList_injective sameRest.symm)]

/-- No part has a line break in it, and none starts with a tab. -/
theorem text_of_valid {part : Part} (valid : part.Valid) :
    (∀ char ∈ part.text.toList, char ≠ '\n') ∧
      ∃ first rest, part.text.toList = first :: rest ∧ first ≠ '\t' := by
  cases part with
  | gap => exact ⟨by simp [Part.text], ' ', [], rfl, by decide⟩
  | word text =>
      rcases valid with ⟨nonempty, inside⟩ | ⟨body, quoted, inside⟩
      · have other {char : Char} (member : char ∈ text.toList) (control : Char)
            (plain : isWordChar control = false) : char ≠ control := by
          rintro rfl
          rw [inside char member] at plain
          cases plain
        obtain ⟨first, rest, chars⟩ := List.exists_cons_of_ne_nil nonempty
        exact ⟨fun char member => other member '\n' (by decide), first, rest, chars,
          other (chars ▸ List.mem_cons_self) '\t' (by decide)⟩
      · refine ⟨?_, '"', body ++ ['"'], quoted, by decide⟩
        intro char member
        rw [Part.text, quoted] at member
        simp only [List.mem_cons, List.mem_append, List.not_mem_nil, or_false] at member
        rcases member with rfl | inBody | rfl
        · decide
        · exact (inside char inBody).2.1
        · decide
  | mark text =>
      have every : ∀ text ∈ delimiters ++ operators, text.toList.all (· != '\n') = true ∧
          text.toList.head?.all (· != '\t') = true := by decide
      obtain ⟨noBreak, noTab⟩ := every text (List.mem_append.mpr valid)
      obtain ⟨first, rest, chars, -⟩ := mark_first valid
      rw [chars, List.head?_cons, Option.all_some, bne_iff_ne] at noTab
      refine ⟨fun char member => ?_, first, rest, chars, noTab⟩
      simpa using List.all_eq_true.mp noBreak char member

/-- There is no line break in the text of legible parts, neither in a word nor in a literal. -/
theorem no_break {parts : List Part} (legible : Legible parts) :
    ∀ char ∈ (textAll parts).toList, char ≠ '\n' := by
  obtain ⟨valid, -⟩ := legible
  induction parts with
  | nil => simp [textAll]
  | cons part parts ih =>
      rw [textAll, String.toList_append]
      exact List.forall_mem_append.mpr ⟨(text_of_valid (valid part (by simp))).1,
        ih fun other member => valid other (List.mem_cons_of_mem part member)⟩

/-- A text starts with its first part, and so not with a tab. -/
theorem textAll_first {part : Part} {parts : List Part} (legible : Legible (part :: parts)) :
    ∃ first rest, (textAll (part :: parts)).toList = first :: rest ∧ first ≠ '\t' := by
  obtain ⟨-, first, rest, chars, noTab⟩ := text_of_valid (legible.1 part (by simp))
  exact ⟨first, rest ++ (textAll parts).toList, by simp [textAll, chars], noTab⟩

end Part

namespace Row

/-- A row that can be read back. -/
def Legible : Row → Prop
  | blank => True
  | code _ parts => parts ≠ [] ∧ Part.Legible parts

/-- What stands on a line, without its line break. -/
def content : Row → List Char
  | blank => []
  | code depth parts => List.replicate depth '\t' ++ (Part.textAll parts).toList

/-- The text of rows is the content of each, with a line break behind it. -/
theorem renderAll_eq (rows : List Row) :
    (Line.renderAll (rows.map line)).toList = rows.flatMap fun row => row.content ++ ['\n'] := by
  have render (row : Row) : row.line.render.toList = row.content ++ ['\n'] := by
    cases row with
    | blank => rfl
    | code depth parts => simp [line, Line.render, content]
  rw [Line.renderAll, String.toList_join, List.map_map, List.flatMap_map]
  exact List.flatMap_congr fun row _ => render row

/-- The tabs in front of a row are its depth, for its first part starts with another character. What
    stands after them is the text of its parts. -/
theorem tabs_cut {depth : Nat} {parts : List Part} (legible : (code depth parts).Legible) :
    (code depth parts).content.takeWhile (· == '\t') = List.replicate depth '\t' ∧
      (code depth parts).content.dropWhile (· == '\t') = (Part.textAll parts).toList := by
  obtain ⟨nonempty, legible⟩ := legible
  obtain ⟨part, parts, rfl⟩ := List.exists_cons_of_ne_nil nonempty
  obtain ⟨first, rest, chars, noTab⟩ := Part.textAll_first legible
  have stops : ∀ next ∈ (Part.textAll (part :: parts)).toList.head?, (next == '\t') = false := by
    simpa [chars] using noTab
  exact Segment.takeWhile_run (by simp) stops

/-- Legible rows with the same content are the same row. A blank row has no content, and the others
    show depth and parts. -/
theorem content_inj {row other : Row} (legible : row.Legible) (otherLegible : other.Legible)
    (same : row.content = other.content) : row = other := by
  have some {depth : Nat} {parts : List Part} (legible : (code depth parts).Legible) :
      (code depth parts).content ≠ [] := by
    obtain ⟨part, later, rfl⟩ := List.exists_cons_of_ne_nil legible.1
    obtain ⟨first, rest, chars, -⟩ := Part.textAll_first legible.2
    simp [content, chars]
  cases row with
  | blank =>
      cases other with
      | blank => rfl
      | code depth parts => exact absurd same.symm (some otherLegible)
  | code depth parts =>
      cases other with
      | blank => exact absurd same (some legible)
      | code otherDepth otherParts =>
          have tabs := (tabs_cut legible).1
          have text := (tabs_cut legible).2
          rw [same, (tabs_cut otherLegible).1] at tabs
          rw [same, (tabs_cut otherLegible).2] at text
          obtain rfl : otherDepth = depth := by simpa using congrArg List.length tabs
          rw [Part.textAll_inj legible.2 otherLegible.2 (String.toList_injective text.symm)]

/-- Legible rows with the same text are the same rows. The induction cuts off one line at a time,
    since no row has a line break in it. -/
theorem renderAll_inj {rows others : List Row} (legible : ∀ row ∈ rows, row.Legible)
    (otherLegible : ∀ row ∈ others, row.Legible)
    (same : Line.renderAll (rows.map line) = Line.renderAll (others.map line)) :
    rows = others := by
  have texts := congrArg String.toList same
  rw [renderAll_eq, renderAll_eq] at texts
  clear same
  have cut {row : Row} (legible : row.Legible) (rest : List Char) :
      (row.content ++ ['\n'] ++ rest).takeWhile (· != '\n') = row.content ∧
        (row.content ++ ['\n'] ++ rest).dropWhile (· != '\n') = '\n' :: rest := by
    rw [List.append_assoc]
    refine Segment.takeWhile_run ?_ (by simp)
    intro char member
    cases row with
    | blank => cases member
    | code depth parts =>
        rcases List.mem_append.mp member with tab | isText
        · rw [List.eq_of_mem_replicate tab]
          decide
        · simpa using Part.no_break legible.2 char isText
  induction rows generalizing others with
  | nil =>
      cases others with
      | nil => rfl
      | cons other others => simp at texts
  | cons row rows ih =>
      cases others with
      | nil => simp at texts
      | cons other others =>
          rw [List.forall_mem_cons] at legible otherLegible
          rw [List.flatMap_cons, List.flatMap_cons] at texts
          have first := congrArg (List.takeWhile (· != '\n')) texts
          have rest := congrArg (List.dropWhile (· != '\n')) texts
          rw [(cut legible.1 _).1, (cut otherLegible.1 _).1] at first
          rw [(cut legible.1 _).2, (cut otherLegible.1 _).2] at rest
          rw [content_inj legible.1 otherLegible.1 first,
            ih legible.2 otherLegible.2 (List.cons.inj rest).2]

end Row

end Offside.Go
