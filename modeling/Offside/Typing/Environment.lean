import Offside.Typing.Basic

/-!
# Environments

Names live in a stack of frames, one for each open block. A frame keeps its
variables and its functions in the order of their declaration; the latest one of
a name counts, and an inner frame hides an outer one. There is always an
innermost frame.
-/

namespace Offside

/-- What one block declares, in order. -/
structure Frame where
  bindings : List Binding
  functions : List Signature
  deriving DecidableEq, Repr

/-- The frames of all open blocks. `enclosing` starts with the frame just outside
    the innermost one. -/
structure Environment where
  innermost : Frame
  enclosing : List Frame
  deriving DecidableEq, Repr

namespace Environment

/-- One frame with the given names. -/
def seeded (bindings : List Binding) (functions : List Signature) : Environment :=
  ⟨⟨bindings, functions⟩, []⟩

/-- All frames, innermost first. -/
def frames (environment : Environment) : List Frame :=
  environment.innermost :: environment.enclosing

/-- The number of open blocks, the outermost frame included. -/
def depth (environment : Environment) : Nat :=
  environment.frames.length

/-- Open a block that starts out with the given variables. -/
def enter (environment : Environment) (bindings : List Binding) : Environment :=
  ⟨⟨bindings, []⟩, environment.frames⟩

/-- Declare a variable in the innermost frame. -/
def declareVariable (environment : Environment) (binding : Binding) : Environment :=
  { environment with
    innermost :=
      { environment.innermost with
        bindings := environment.innermost.bindings ++ [binding] } }

/-- Declare a function in the innermost frame. -/
def declareFunction (environment : Environment) (function : Signature) : Environment :=
  { environment with
    innermost :=
      { environment.innermost with
        functions := environment.innermost.functions ++ [function] } }

/-- The variable of this name that the innermost frame declares, if any. -/
def declaredHere? (environment : Environment) (name : String) : Option Binding :=
  environment.innermost.bindings.find? (fun binding => binding.name == name)

/-- The variable that a name stands for. -/
def binding? (environment : Environment) (name : String) : Option Binding :=
  environment.frames.findSome? fun frame =>
    frame.bindings.reverse.find? (fun binding => binding.name == name)

/-- The function that a name stands for. -/
def signature? (environment : Environment) (name : String) : Option Signature :=
  environment.frames.findSome? fun frame =>
    frame.functions.reverse.find? (fun signature => signature.name == name)

/-- The functions of all frames, outermost first, each frame in order. Those that
    are hidden are listed too. -/
def visibleFunctions (environment : Environment) : List Signature :=
  environment.frames.reverse.flatMap Frame.functions

end Environment

end Offside
