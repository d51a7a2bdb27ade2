import Offside.Kind
import Offside.Typing.Basic

/-!
# Builtin functions

The builtins are recognized by name while scanning and get kinds of their own,
so no definition can take their place. Their signatures have the same form as
those of defined functions.
-/

namespace Offside

/-- A builtin function: the kind of its name, and its signature. -/
structure Builtin where
  kind : Kind
  signature : Signature
  deriving DecidableEq, Repr

namespace Builtin

/-- Writes one value of any type. -/
def print : Builtin :=
  ⟨.print, "print", [.any], .null⟩

/-- The bounds of a counting loop. -/
def range : Builtin :=
  ⟨.range, "range", [.int, .int], .null⟩

/-- All builtins. -/
def all : List Builtin :=
  [print, range]

/-- The builtin of this name. -/
def ofName? (name : String) : Option Builtin :=
  all.find? (fun builtin => builtin.signature.name == name)

/-- The builtin whose name has this kind. -/
def ofKind? (kind : Kind) : Option Builtin :=
  all.find? (fun builtin => builtin.kind == kind)

end Builtin

end Offside
