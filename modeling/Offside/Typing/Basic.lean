/-!
# Nominal types

Types are names. A value fits an expected type when the names are equal, and in
two further cases: every value fits `any`, and a number written out in the
source fits every numeric type. The second case is the reason for telling a
literal from a value of type `int`.
-/

namespace Offside

/-- Types are compared by name only; any identifier may name one. -/
abbrev TypeName := String

namespace TypeName

/-- Takes every value. -/
def any : TypeName := "any"

/-- The type of `None`, and the result of a function that returns nothing. -/
def null : TypeName := "null"

/-- The type of loop variables, and of a number that was not widened. -/
def int : TypeName := "int"

/-- The type of string literals. -/
def string : TypeName := "string"

/-- The type of `True` and `False`. -/
def bool : TypeName := "bool"

/-- The types that a number written out in the source may take. -/
def integerFamily : List TypeName :=
  ["int", "int8", "int16", "int32", "int64",
    "uint", "uint8", "uint16", "uint32", "uint64",
    "byte", "float32", "float64"]

/-- Whether a written number may take this type. -/
def isIntegerFamily (expected : TypeName) : Bool :=
  integerFamily.contains expected

end TypeName

/-- A variable and its declared type. -/
structure Binding where
  name : String
  type : TypeName
  deriving DecidableEq, Repr

/-- A function as its callers see it. -/
structure Signature where
  name : String
  parameters : List TypeName
  returns : TypeName
  deriving DecidableEq, Repr

/-- The type of a value before it is matched with an expected type. -/
inductive StaticType where
  /-- A number written out in the source. -/
  | intLiteral
  | named (type : TypeName)
  deriving DecidableEq, Repr

/-- The name of a type in comparisons and diagnostics. -/
def StaticType.name : StaticType → TypeName
  | intLiteral => .int
  | named type => type

/-- How a value meets an expected type. -/
inductive Compatibility where
  | exact
  /-- Accepted because the expected type is `any`, or because a written number
      takes a numeric type other than `int`. -/
  | widened
  | incompatible
  deriving DecidableEq, Repr

/-- Whether the value may be bound. -/
def Compatibility.isOk : Compatibility → Bool
  | incompatible => false
  | _ => true

/-- How a value of static type `value` meets the type `expected`. -/
def StaticType.compatibility (value : StaticType) (expected : TypeName) : Compatibility :=
  if value.name = expected then .exact
  else if expected = .any then .widened
  else if value = .intLiteral ∧ TypeName.isIntegerFamily expected then .widened
  else .incompatible

end Offside
