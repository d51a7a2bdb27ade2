import Mathlib.Data.List.Range
import Offside.Proofs.Syntax.Derivation

/-!
# Placeholders and functions

Hoisting takes every definition out of the place where it stands and leaves a
placeholder there. In a program that was read from tokens nothing is lost or made
up by this: each function has exactly one placeholder, at whatever depth and in
whichever body, on the line where its definition starts.

A definition is numbered when its body has ended, after the definitions inside the
body. So a body only has placeholders of functions with smaller numbers, and going
from placeholders to bodies always comes to an end.
-/

namespace Offside

open Grammar

/-- The index and the line of a placeholder. -/
def Statement.placeholder? : Statement → Option (Nat × Nat)
  | .hoisted index line => some (index, line)
  | _ => none

/-- The placeholders among statements that are listed with their depths. -/
def placeholdersOf (outline : List (Nat × Statement)) : List (Nat × Nat) :=
  outline.filterMap fun entry => entry.2.placeholder?

/-- The placeholders in a block, however deep they stand. -/
def Block.placeholders (body : Block Statement) : List (Nat × Nat) :=
  placeholdersOf (body.outline 1)

/-- The placeholders of a program: in its body and in the bodies of its
    functions. -/
def Program.placeholders (program : Program) : List (Nat × Nat) :=
  placeholdersOf program.outline

/-- Placeholders and functions of a program belong together. -/
structure Program.Hoisted (program : Program) : Prop where
  /-- Every function has exactly one placeholder, and nothing else has one. -/
  once : (program.placeholders.map Prod.fst).Perm (List.range program.functions.length)
  /-- A placeholder stands on the line of the word that starts the definition. -/
  line : ∀ placeholder ∈ program.placeholders, ∃ definition : Definition,
    program.functions[placeholder.1]? = some definition ∧
      definition.keyword.kind = .defWord ∧ definition.keyword.line = placeholder.2
  /-- A body contains only functions that are numbered before its own. -/
  before : ∀ (index : Nat) (definition : Definition),
    program.functions[index]? = some definition →
      ∀ placeholder ∈ definition.body.placeholders, placeholder.1 < index

/-! ## Along a derivation -/

/-- The statements of a phrase at depth `depth`, with everything inside them. -/
def Grammar.Phrase.outline (depth : Nat) : Phrase → List (Nat × Statement)
  | .block body => body.outline depth
  | .continuation branches otherwise =>
      Branch.outlineAll depth branches ++
        match otherwise with
        | none => []
        | some body => body.outline depth
  | .compound statement => statement.outline depth
  | .statements list => Statement.outlineAll depth list

/-- The placeholders that functions numbered from `first` on are to have. -/
def expectedPlaceholders (first : Nat) (functions : List Definition) : List (Nat × Nat) :=
  (functions.zipIdx first).map fun entry => (entry.2, entry.1.keyword.line)

/-- The placeholders in the bodies of functions. -/
def innerPlaceholders (functions : List Definition) : List (Nat × Nat) :=
  functions.flatMap fun definition => definition.body.placeholders

/-- The bodies of functions numbered from `first` on contain only functions that are
    numbered before them. -/
def BodiesBefore (first : Nat) (functions : List Definition) : Prop :=
  ∀ (index : Nat) (definition : Definition), functions[index]? = some definition →
    ∀ placeholder ∈ definition.body.placeholders, placeholder.1 < first + index

/-- The placeholders of two outlines in a row are those of the first and then those of the
    second. -/
@[simp]
theorem placeholdersOf_append (leading following : List (Nat × Statement)) :
    placeholdersOf (leading ++ following) = placeholdersOf leading ++ placeholdersOf following :=
  List.filterMap_append

/-- A statement that is no placeholder adds nothing to those inside it. -/
theorem placeholdersOf_cons {depth : Nat} {statement : Statement}
    (noDefinition : statement.placeholder? = none) (inside : List (Nat × Statement)) :
    placeholdersOf ((depth, statement) :: inside) = placeholdersOf inside := by
  simp [placeholdersOf, noDefinition]

/-- The placeholders that two stretches of functions are to have are numbered on from the first
    stretch to the second. -/
theorem expectedPlaceholders_append (first : Nat) (functions others : List Definition) :
    expectedPlaceholders first (functions ++ others) =
      expectedPlaceholders first functions ++
        expectedPlaceholders (first + functions.length) others := by
  simp [expectedPlaceholders, List.zipIdx_append]

/-- A placeholder is expected exactly when it has the number of one of the functions and the line
    where its definition starts. -/
theorem mem_expectedPlaceholders {first : Nat} {functions : List Definition}
    {placeholder : Nat × Nat} :
    placeholder ∈ expectedPlaceholders first functions ↔
      ∃ index definition, functions[index]? = some definition ∧
        placeholder = (first + index, definition.keyword.line) := by
  simp only [expectedPlaceholders, List.mem_map, Prod.exists,
    List.mk_mem_zipIdx_iff_le_and_getElem?_sub]
  constructor
  · rintro ⟨definition, number, ⟨after, found⟩, rfl⟩
    exact ⟨number - first, definition, found, by simp; omega⟩
  · rintro ⟨index, definition, found, rfl⟩
    exact ⟨definition, first + index, ⟨by omega, by simpa using found⟩, rfl⟩

/-- Two parts with their bodies, taken together, may be put in order part by part or bodies last.
    The result is the same up to order. -/
theorem perm_together {α : Type} {leading following inLeading inFollowing first second : List α}
    (firstPerm : (leading ++ inLeading).Perm first)
    (secondPerm : (following ++ inFollowing).Perm second) :
    ((leading ++ following) ++ (inLeading ++ inFollowing)).Perm (first ++ second) := by
  refine List.Perm.trans ?_ (firstPerm.append secondPerm)
  have swapped : (following ++ (inLeading ++ inFollowing)).Perm
      (inLeading ++ (following ++ inFollowing)) := by
    rw [← List.append_assoc, ← List.append_assoc]
    exact List.perm_append_comm.append_right inFollowing
  simpa [List.append_assoc] using swapped.append_left leading

/-- Bodies that contain only earlier functions do so when two stretches of functions are put
    together, the second numbered on from the first. -/
theorem bodiesBefore_append {first : Nat} {functions others : List Definition}
    (leading : BodiesBefore first functions)
    (following : BodiesBefore (first + functions.length) others) :
    BodiesBefore first (functions ++ others) := by
  intro index definition found placeholder isInside
  rcases Nat.lt_or_ge index functions.length with before | after
  · rw [List.getElem?_append_left before] at found
    exact leading index definition found placeholder isInside
  · rw [List.getElem?_append_right after] at found
    have smaller := following _ definition found placeholder isInside
    omega

/-- What a phrase contributes: with the placeholders in the bodies of the functions
    that it defines, exactly one for each of these functions. -/
structure Hoists (first : Nat) (phrase : Phrase) (functions : List Definition) : Prop where
  once : ∀ depth, (placeholdersOf (phrase.outline depth) ++ innerPlaceholders functions).Perm
    (expectedPlaceholders first functions)
  keyword : ∀ definition ∈ functions, definition.keyword.kind = .defWord
  before : BodiesBefore first functions

/-- A phrase without placeholders that defines no function has nothing to account for. -/
theorem hoists_nothing {first : Nat} {phrase : Phrase}
    (empty : ∀ depth, placeholdersOf (phrase.outline depth) = []) : Hoists first phrase [] where
  once depth := by simp [empty, innerPlaceholders, expectedPlaceholders]
  keyword := by simp
  before := by simp [BodiesBefore]

/-- A phrase with the same placeholders as another, one level deeper or on the same
    level. -/
theorem Hoists.same {first : Nat} {phrase other : Phrase} {functions : List Definition}
    (hoists : Hoists first phrase functions) (deeper : Nat)
    (same : ∀ depth, placeholdersOf (other.outline depth) =
      placeholdersOf (phrase.outline (depth + deeper))) :
    Hoists first other functions where
  once depth := by
    rw [same]
    exact hoists.once (depth + deeper)
  keyword := hoists.keyword
  before := hoists.before

/-- A phrase that consists of two others, the second of which comes after the
    first. -/
theorem Hoists.append {first : Nat} {leading following whole : Phrase}
    {functions laterFunctions : List Definition} (hoists : Hoists first leading functions)
    (later : Hoists (first + functions.length) following laterFunctions) (deeper : Nat)
    (same : ∀ depth, placeholdersOf (whole.outline depth) =
      placeholdersOf (leading.outline (depth + deeper)) ++
        placeholdersOf (following.outline (depth + deeper))) :
    Hoists first whole (functions ++ laterFunctions) where
  once depth := by
    rw [same, expectedPlaceholders_append, innerPlaceholders, List.flatMap_append]
    exact perm_together (hoists.once _) (later.once _)
  keyword definition member := by
    rcases List.mem_append.mp member with inFirst | inLater
    · exact hoists.keyword definition inFirst
    · exact later.keyword definition inLater
  before := bodiesBefore_append hoists.before later.before

/-- A definition takes the placeholders of its body with it, and leaves its own. -/
theorem Hoists.definition {first : Nat} {body : Block Statement} {functions : List Definition}
    (hoists : Hoists first (.block body) functions) {keyword : Token}
    (isDef : keyword.kind = .defWord) (name : Token) (parameters : List Parameter)
    (returns : Option Token) :
    Hoists first (.compound (.hoisted (first + functions.length) keyword.line))
      (functions ++ [⟨keyword, name, parameters, returns, body⟩]) where
  once depth := by
    have inside : (innerPlaceholders functions ++ body.placeholders).Perm
        (expectedPlaceholders first functions) :=
      List.perm_append_comm.trans (hoists.once 1)
    have whole : ((first + functions.length, keyword.line) ::
        (innerPlaceholders functions ++ body.placeholders)).Perm
        (expectedPlaceholders first functions ++ [(first + functions.length, keyword.line)]) :=
      (inside.cons _).trans (List.perm_append_singleton _ _).symm
    rw [expectedPlaceholders_append]
    simpa [Phrase.outline, Statement.outline, placeholdersOf, Statement.placeholder?,
      innerPlaceholders, expectedPlaceholders] using whole
  keyword definition member := by
    rcases List.mem_append.mp member with inFirst | isLast
    · exact hoists.keyword definition inFirst
    · rw [List.mem_singleton.mp isLast]
      exact isDef
  before := by
    refine bodiesBefore_append hoists.before ?_
    intro index definition found placeholder isInside
    have expected : ∀ placeholder ∈ body.placeholders,
        placeholder ∈ expectedPlaceholders first functions := fun placeholder member =>
      (hoists.once 1).mem_iff.mp (List.mem_append_left _ member)
    rcases index with _ | index
    · obtain rfl : _ = definition := by simpa using found
      obtain ⟨number, inner, isFunction, rfl⟩ :=
        mem_expectedPlaceholders.mp (expected placeholder isInside)
      have inBounds := (List.getElem?_eq_some_iff.mp isFunction).1
      dsimp only
      omega
    · simp at found

/-- A statement on one line has no placeholder in it, for only a definition leaves one and it ends
    with a block. -/
theorem simple_no_placeholder {tokens : List Token} {statement : Statement}
    (derived : SimpleOf tokens statement) (depth : Nat) :
    placeholdersOf (statement.outline depth) = [] := by
  cases derived <;> rfl

/-- A derived phrase leaves one placeholder for each of its functions, the ones inside their bodies
    included. The induction is on the derivation. -/
theorem derives_hoists {first : Nat} {tokens : List Token} {phrase : Phrase}
    {functions : List Definition} (derived : Derives first tokens phrase functions) :
    Hoists first phrase functions := by
  induction derived with
  | block first colon newline close tokens statements functions isColon isBreak isClose nonempty
      derived ih => exact ih.same 0 fun depth => by simp [Phrase.outline, Block.outline]
  | chainEnd first =>
      exact hoists_nothing fun depth => by simp [Phrase.outline, Branch.outlineAll, placeholdersOf]
  | otherwise first gap keyword tokens body functions breaks isElse derived ih =>
      exact ih.same 0 fun depth => by simp [Phrase.outline, Branch.outlineAll]
  | branch first gap keyword condition tokens later comparison body branches otherwise functions
      laterFunctions breaks isElif compared derived continued ih laterIh =>
      exact ih.append laterIh 0 fun depth => by
        simp [Phrase.outline, Branch.outlineAll, List.append_assoc]
  | forRange first keyword counter inside range left start comma stop right tokens body functions
      isFor isCounter isIn isRange opens startBound isComma stopBound closes derived ih =>
      exact ih.same 1 fun depth => by
        simp only [Phrase.outline, Statement.outline]
        exact placeholdersOf_cons rfl _
  | whileLoop first keyword condition tokens comparison body functions isWhile compared derived
      ih =>
      exact ih.same 1 fun depth => by
        simp only [Phrase.outline, Statement.outline]
        exact placeholdersOf_cons rfl _
  | ifChain first keyword condition tokens later comparison body branches otherwise functions
      laterFunctions isIf compared derived continued ih laterIh =>
      refine ih.append laterIh 1 fun depth => ?_
      cases otherwise with
      | none =>
          simp only [Phrase.outline, Statement.outline, Branch.outlineAll]
          rw [placeholdersOf_cons rfl]
          simp
      | some last =>
          simp only [Phrase.outline, Statement.outline, Branch.outlineAll]
          rw [placeholdersOf_cons rfl]
          simp
  | definition first keyword name left right inner resultTokens tokens parameters returns body
      functions isDef isName opens listed closes result derived ih =>
      exact ih.definition isDef name parameters returns
  | listEnd first gap breaks =>
      exact hoists_nothing fun depth => by
        simp [Phrase.outline, Statement.outlineAll, placeholdersOf]
  | simple first gap tokens later statement statements functions breaks derived ends continued ih =>
      exact ih.same 0 fun depth => by
        simp [Phrase.outline, Statement.outlineAll, simple_no_placeholder derived]
  | compound first gap tokens later statement statements functions laterFunctions breaks derived
      continued ih laterIh =>
      exact ih.append laterIh 0 fun depth => by simp [Phrase.outline, Statement.outlineAll]

/-- In a program that tokens stand for, placeholders and functions belong
    together. -/
theorem program_hoisted {tokens : List Token} {program : Program}
    (derived : ProgramOf tokens program) : program.Hoisted := by
  cases derived with
  | program gap clauseTokens tokens clause body functions breaks imported ends derived =>
      have hoists := derives_hoists derived
      have all : (Program.placeholders ⟨clause, body, functions⟩).Perm
          (expectedPlaceholders 0 functions) := by
        have inside : placeholdersOf
            (functions.flatMap fun definition => definition.body.outline 1) =
            innerPlaceholders functions := by
          simp [placeholdersOf, List.filterMap_flatMap, innerPlaceholders, Block.placeholders]
        rw [Program.placeholders, Program.outline, placeholdersOf_append, inside]
        exact hoists.once 0
      refine ⟨?_, ?_, ?_⟩
      · have numbers : (expectedPlaceholders 0 functions).map Prod.fst =
            List.range functions.length := by
          simp [expectedPlaceholders, Function.comp_def, List.range_eq_range']
        exact numbers ▸ all.map Prod.fst
      · intro placeholder member
        obtain ⟨index, definition, found, rfl⟩ :=
          mem_expectedPlaceholders.mp (all.mem_iff.mp member)
        exact ⟨definition, by simpa using found,
          hoists.keyword definition (List.mem_of_getElem? found), rfl⟩
      · intro index definition found placeholder isInside
        simpa using hoists.before index definition found placeholder isInside

end Offside
