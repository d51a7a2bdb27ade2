import Offside.Proofs.Syntax.Place
import Offside.Typing.Check

/-!
# Names that are visible at a place

What a name stands for is settled by the path to the place where it is used, and
by nothing else: no state is carried along. The variables are those declared
earlier in the list of the place and in the lists around it, the counters of the
loops around it and the parameters of the nearest function around it. Variables
end there, at the function, and functions do not: a body also sees the functions
that are visible where it is defined, and itself.

A stack of frames that grows along the walk gives every name the same meaning, and
`Place.environment` is the stack that a walk has built when it comes to the place.
-/

namespace Offside

/-- What a program is checked with: the names given from outside, and the functions
    behind its placeholders. -/
structure Setting where
  bindings : List Binding
  signatures : List Signature
  definitions : List Definition

/-- The variables that statements of a list declare, in order. -/
def declaredIn (statements : List Statement) : List Binding :=
  statements.filterMap fun statement =>
    match statement with
    | .declaration name type _ => some ⟨name.lexeme, type.lexeme⟩
    | _ => none

/-- The functions that statements of a list define, in order. -/
def definedIn (definitions : List Definition) (statements : List Statement) : List Signature :=
  statements.filterMap fun statement =>
    match statement with
    | .hoisted index _ => definitions[index]?.map Definition.signature
    | _ => none

/-- The variable that counts a loop. -/
def counterBindings (counter : Option Token) : List Binding :=
  counter.toList.map fun token => ⟨token.lexeme, .int⟩

namespace Place

variable (setting : Setting)

/-- The variables bound in the block of a place before it. -/
def own : Place → List Binding
  | top earlier => setting.bindings ++ declaredIn earlier
  | inBlock _ counter earlier => counterBindings counter ++ declaredIn earlier
  | inBody _ definition earlier => definition.bindings ++ declaredIn earlier

/-- The variables that are visible at a place, nearest first. -/
def bindings : Place → List Binding
  | top earlier => (own setting (top earlier)).reverse
  | inBlock outer counter earlier =>
      (own setting (inBlock outer counter earlier)).reverse ++ bindings outer
  | inBody outer definition earlier => (own setting (inBody outer definition earlier)).reverse

/-- The functions that are visible at a place, nearest first. -/
def signatures : Place → List Signature
  | top earlier => (setting.signatures ++ definedIn setting.definitions earlier).reverse
  | inBlock outer _ earlier => (definedIn setting.definitions earlier).reverse ++ signatures outer
  | inBody outer definition earlier =>
      (definedIn setting.definitions earlier).reverse ++ definition.signature :: signatures outer

/-- The variable that a name stands for at a place. -/
def binding? (place : Place) (name : String) : Option Binding :=
  (place.bindings setting).find? fun binding => binding.name == name

/-- The function that a name stands for at a place. -/
def signature? (place : Place) (name : String) : Option Signature :=
  (place.signatures setting).find? fun signature => signature.name == name

/-- The frames that a walk has built when it comes to the place. -/
def environment : Place → Environment
  | top earlier =>
      ⟨⟨own setting (top earlier), setting.signatures ++ definedIn setting.definitions earlier⟩, []⟩
  | inBlock outer counter earlier =>
      ⟨⟨own setting (inBlock outer counter earlier), definedIn setting.definitions earlier⟩,
        (environment outer).frames⟩
  | inBody outer definition earlier =>
      ⟨⟨own setting (inBody outer definition earlier), definedIn setting.definitions earlier⟩,
        [⟨[], ((environment outer).declareFunction definition.signature).visibleFunctions⟩]⟩

end Place

/-! ## Frames and paths agree -/

namespace Environment

/-- A variable is looked up in the frames from the innermost outwards, and in each frame from its
    end. -/
theorem binding?_eq (environment : Environment) (name : String) :
    environment.binding? name =
      (environment.frames.flatMap fun frame => frame.bindings.reverse).find?
        fun binding => binding.name == name := by
  rw [List.find?_flatMap]
  rfl

/-- A function is looked up in the frames from the innermost outwards, and in each frame from its
    end. -/
theorem signature?_eq (environment : Environment) (name : String) :
    environment.signature? name =
      (environment.frames.flatMap fun frame => frame.functions.reverse).find?
        fun signature => signature.name == name := by
  rw [List.find?_flatMap]
  rfl

/-- The visible functions as they are listed for a body, nearest first. -/
theorem reverse_visibleFunctions (environment : Environment) :
    environment.visibleFunctions.reverse =
      environment.frames.flatMap fun frame => frame.functions.reverse := by
  rw [visibleFunctions, List.reverse_flatMap, List.reverse_reverse]
  rfl

end Environment

namespace Place

variable (setting : Setting)

/-- The variables in the frames of a place are those that are visible there, nearest first, by
    induction on the path to the place. -/
theorem frames_bindings (place : Place) :
    ((place.environment setting).frames.flatMap fun frame => frame.bindings.reverse) =
      place.bindings setting := by
  induction place with
  | top earlier => simp [environment, Environment.frames, bindings]
  | inBlock outer counter earlier ih =>
      rw [environment, Environment.frames, List.flatMap_cons, ih, bindings]
  | inBody outer definition earlier ih => simp [environment, Environment.frames, bindings]

/-- The functions in the frames of a place are those that are visible there, nearest first, by
    induction on the path to the place. -/
theorem frames_functions (place : Place) :
    ((place.environment setting).frames.flatMap fun frame => frame.functions.reverse) =
      place.signatures setting := by
  induction place with
  | top earlier => simp [environment, Environment.frames, signatures]
  | inBlock outer counter earlier ih =>
      rw [environment, Environment.frames, List.flatMap_cons, ih, signatures]
  | inBody outer definition earlier ih =>
      have visible : ((environment setting outer).declareFunction
          definition.signature).visibleFunctions.reverse =
          definition.signature :: signatures setting outer := by
        rw [Environment.reverse_visibleFunctions, ← ih]
        simp [Environment.frames, Environment.declareFunction]
      rw [environment, Environment.frames, signatures]
      simp [visible]

/-- A walk looks a variable up as the path says, though it has kept nothing but its frames. -/
theorem binding?_environment (place : Place) (name : String) :
    (place.environment setting).binding? name = place.binding? setting name := by
  rw [Environment.binding?_eq, frames_bindings, Place.binding?]

/-- A walk looks a function up as the path says, across the bodies around the place as well. -/
theorem signature?_environment (place : Place) (name : String) :
    (place.environment setting).signature? name = place.signature? setting name := by
  rw [Environment.signature?_eq, frames_functions, Place.signature?]

/-- The innermost frame has the variables of the place's own block, and no others. -/
theorem declaredHere?_environment (place : Place) (name : String) :
    (place.environment setting).declaredHere? name =
      (place.own setting).find? fun binding => binding.name == name := by
  cases place <;> rfl

/-! ## One statement further -/

/-- The place after a declaration has the environment with one more variable in its innermost
    frame. -/
theorem environment_after_declaration (place : Place) (name type : Token) (value : Value) :
    (place.after [.declaration name type value]).environment setting =
      (place.environment setting).declareVariable ⟨name.lexeme, type.lexeme⟩ := by
  cases place <;>
    simp [after, environment, own, Environment.declareVariable, declaredIn, definedIn]

/-- The place after a placeholder has the environment with one more function in its innermost
    frame. -/
theorem environment_after_hoisted (place : Place) {index : Nat} (line : Nat)
    {definition : Definition} (found : setting.definitions[index]? = some definition) :
    (place.after [.hoisted index line]).environment setting =
      (place.environment setting).declareFunction definition.signature := by
  cases place <;>
    simp [after, environment, own, Environment.declareFunction, declaredIn, definedIn, found]

/-- Only declarations and definitions add names, so past any other statement the environment is the
    same. -/
theorem environment_after_other (place : Place) {statement : Statement}
    (noDeclaration : ∀ name type value, statement ≠ .declaration name type value)
    (noDefinition : ∀ index line, statement ≠ .hoisted index line) :
    (place.after [statement]).environment setting = place.environment setting := by
  have declared : declaredIn [statement] = [] := by
    cases statement <;> simp_all [declaredIn]
  have defined : definedIn setting.definitions [statement] = [] := by
    cases statement <;> simp_all [definedIn]
  have declaredMore (earlier : List Statement) :
      declaredIn (earlier ++ [statement]) = declaredIn earlier := by
    rw [declaredIn, List.filterMap_append, ← declaredIn, ← declaredIn, declared, List.append_nil]
  have definedMore (earlier : List Statement) :
      definedIn setting.definitions (earlier ++ [statement]) =
        definedIn setting.definitions earlier := by
    rw [definedIn, List.filterMap_append, ← definedIn, ← definedIn, defined, List.append_nil]
  cases place <;> simp [after, environment, own, declaredMore, definedMore]

end Place

end Offside
