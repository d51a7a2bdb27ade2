import Mathlib.Data.List.Flatten
import Offside.Proofs.Source.Printing
import Offside.Proofs.Syntax.Hoisting

/-!
# Statements where they are written

Hoisting moves the bodies of functions to the end of a program. The outline of a program
lists them there, while in the source a body stands right after the header that its
placeholder is left for. Listed with every body at its placeholder, the statements are in
the order in which the source has them.

A body only has placeholders of functions that come before its own, so the bodies are
listed one after another, each with those before it. Since every function has exactly one
placeholder, no statement is lost on the way and none is listed twice.
-/

namespace Offside

/-- The statements of the body that a placeholder stands for. `bodies` has them by the
    numbers of the functions. -/
def bodyOf (bodies : List (List Statement)) (placeholder : Nat × Nat) : List Statement :=
  bodies[placeholder.1]?.getD []

/-- The statements of an outline, with the body of a function after its placeholder. -/
def inPlace (bodies : List (List Statement)) (outline : List (Nat × Statement)) :
    List Statement :=
  outline.flatMap fun entry =>
    entry.2 :: entry.2.placeholder?.toList.flatMap (bodyOf bodies)

/-- The statements in the body of each function, with those of the functions inside it. -/
def Definition.bodies (functions : List Definition) : List (List Statement) :=
  accumulate (fun earlier definition => inPlace earlier (definition.body.outline 1)) functions

/-- All statements of a program in preorder, the body of a function right after its
    placeholder. -/
def Program.preorder (program : Program) : List Statement :=
  inPlace (Definition.bodies program.functions) (Statement.outlineAll 0 program.body)

/-- Outlines in a row are listed one after the other, since each entry is replaced on its own. -/
theorem inPlace_append (bodies : List (List Statement)) (first second : List (Nat × Statement)) :
    inPlace bodies (first ++ second) = inPlace bodies first ++ inPlace bodies second :=
  List.flatMap_append

/-- A statement that is no placeholder is listed alone, with nothing in between it and the next
    entry of the outline. -/
theorem inPlace_cons {depth : Nat} {statement : Statement}
    (noDefinition : statement.placeholder? = none) (bodies : List (List Statement))
    (inside : List (Nat × Statement)) :
    inPlace bodies ((depth, statement) :: inside) = statement :: inPlace bodies inside := by
  rw [inPlace, List.flatMap_cons, noDefinition]
  rfl

/-- Only the bodies of functions that have a placeholder in the outline matter. On all others two
    lists of bodies may differ. -/
theorem inPlace_congr {bodies others : List (List Statement)} {outline : List (Nat × Statement)}
    (same : ∀ placeholder ∈ placeholdersOf outline,
      bodies[placeholder.1]? = others[placeholder.1]?) :
    inPlace bodies outline = inPlace others outline := by
  refine List.flatMap_congr fun entry member => ?_
  refine congrArg (entry.2 :: ·) (List.flatMap_congr fun placeholder isFound => ?_)
  have listed : placeholder ∈ placeholdersOf outline :=
    List.mem_filterMap.mpr ⟨entry, member, Option.mem_toList.mp isFound⟩
  rw [bodyOf, bodyOf, same placeholder listed]

/-- Up to their order, the statements are those of the outline and of the bodies. -/
theorem inPlace_perm (bodies : List (List Statement)) (outline : List (Nat × Statement)) :
    (inPlace bodies outline).Perm
      (outline.map Prod.snd ++ (placeholdersOf outline).flatMap (bodyOf bodies)) := by
  have parts := (List.flatMap_append_perm outline (fun entry => [entry.2]) fun entry =>
    entry.2.placeholder?.toList.flatMap (bodyOf bodies)).symm
  have placeholders : placeholdersOf outline =
      outline.flatMap fun entry => entry.2.placeholder?.toList :=
    List.filterMap_eq_flatMap_toList _ _
  rw [placeholders, List.flatMap_assoc, List.map_eq_flatMap]
  exact parts

/-! ## The bodies of functions -/

/-- The body of a function is listed with the bodies of all functions inside it. -/
theorem Program.Hoisted.bodies_getElem? {program : Program} (hoisted : program.Hoisted)
    {index : Nat} {definition : Definition}
    (found : program.functions[index]? = some definition) :
    (Definition.bodies program.functions)[index]? =
      some (inPlace (Definition.bodies program.functions) (definition.body.outline 1)) := by
  rw [Definition.bodies, accumulate_getElem?, found, Option.map_some, Option.some.injEq]
  apply inPlace_congr
  intro placeholder isInside
  have before := hoisted.before index definition found placeholder isInside
  rw [accumulate_getElem?, accumulate_getElem?, List.getElem?_take_of_lt before, List.take_take,
    Nat.min_eq_left (Nat.le_of_lt before)]

/-- In a hoisted program the bodies solve their own equation: each is the outline of its function
    with all the bodies put in place, for a function only has placeholders of earlier ones. -/
theorem Program.Hoisted.bodies_eq {program : Program} (hoisted : program.Hoisted) :
    Definition.bodies program.functions =
      program.functions.map fun definition =>
        inPlace (Definition.bodies program.functions) (definition.body.outline 1) := by
  apply List.ext_getElem?
  intro index
  rw [List.getElem?_map]
  cases found : program.functions[index]? with
  | none => rw [Definition.bodies, accumulate_getElem?, found]; rfl
  | some definition => exact hoisted.bodies_getElem? found

/-- The bodies that placeholders of all functions stand for are all bodies. -/
theorem flatMap_bodyOf_perm (bodies : List (List Statement)) {placeholders : List (Nat × Nat)}
    (once : (placeholders.map Prod.fst).Perm (List.range bodies.length)) :
    (placeholders.flatMap (bodyOf bodies)).Perm bodies.flatten := by
  have listed : (List.range bodies.length).map (fun index => bodies[index]?.getD []) = bodies := by
    apply List.ext_getElem (by simp)
    intro index _ inside
    simp [List.getElem?_eq_getElem inside]
  calc placeholders.flatMap (bodyOf bodies)
      = (placeholders.map Prod.fst).flatMap fun index => bodies[index]?.getD [] := by
        rw [List.flatMap_map]
        rfl
    List.Perm _ ((List.range bodies.length).flatMap fun index => bodies[index]?.getD []) :=
        once.flatMap_right _
    _ = bodies.flatten := by rw [List.flatMap_def, listed]

/-- The statements in preorder are those of the outline, each as often as there.

    The outline and the bodies hold every body twice: once where it is, and once for its
    placeholder. Taking away the bodies for placeholders in other bodies on both sides leaves
    those for placeholders in the body of the program. -/
theorem Program.Hoisted.preorder_perm {program : Program} (hoisted : program.Hoisted) :
    program.preorder.Perm (program.outline.map Prod.snd) := by
  have unfolded := hoisted.bodies_eq
  have counted : (Definition.bodies program.functions).length = program.functions.length :=
    length_accumulate _ _
  have once := hoisted.once
  rw [Program.preorder]
  generalize Definition.bodies program.functions = bodies at unfolded counted
  rw [← counted] at once
  let inner := program.functions.flatMap fun definition => definition.body.placeholders
  have split : program.placeholders =
      placeholdersOf (Statement.outlineAll 0 program.body) ++ inner := by
    rw [Program.placeholders, Program.outline, placeholdersOf_append]
    simp [placeholdersOf, List.filterMap_flatMap, inner, Block.placeholders]
  have twice : bodies.flatten.Perm
      ((program.functions.flatMap fun definition => (definition.body.outline 1).map Prod.snd) ++
        inner.flatMap (bodyOf bodies)) := by
    have unfoldedAll := congrArg List.flatten unfolded
    rw [← List.flatMap_def] at unfoldedAll
    rw [unfoldedAll, List.flatMap_assoc]
    refine (List.Perm.flatMap_left _ fun definition _ => inPlace_perm bodies _).trans ?_
    exact (List.flatMap_append_perm _ _ _).symm
  have all := flatMap_bodyOf_perm bodies once
  rw [split, List.flatMap_append] at all
  have bodiesOnce := (List.perm_append_right_iff _).mp (all.trans twice)
  rw [Program.outline, List.map_append, List.map_flatMap]
  exact (inPlace_perm bodies _).trans (bodiesOnce.append_left _)

end Offside
