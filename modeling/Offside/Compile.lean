import Offside.Go.Emit
import Offside.Layout
import Offside.Syntax.Grammar
import Offside.Token.Scan
import Offside.Typing.Check

/-!
# Compilation

The phases in order. Each runs only if the one before it succeeded, and each
reports what it did once it has succeeded.
-/

namespace Offside

/-- The tokens of a source. The line count is one more than the line breaks. -/
def scanned (source : List UInt8) : Traced (List Token) := do
  let tokens ← Traced.lift (Token.scan source)
  let breaks := tokens.countP (fun token => token.kind == .newline)
  Traced.report (.scanned tokens.length (1 + breaks))
  return tokens

/-- The tokens of a source after layout. -/
def laidOut (source : List UInt8) : Traced (List Token) := do
  let tokens ← scanned source
  let layout ← Traced.lift (Layout.ofTokens tokens)
  Traced.report (.laidOut layout.tokens.length layout.opened)
  return layout.tokens

/-- The program of a source, before static analysis. -/
def parsed (source : List UInt8) : Traced Program := do
  Program.parse (← laidOut source)

/-- The Go file of a program. -/
def emitted (program : Program) : Traced String := do
  let text ← Traced.lift (Go.emit program)
  Traced.report (.emitted text.utf8ByteSize)
  return text

/-- The Go file of a source. -/
def compile (source : List UInt8) : Traced String := do
  let program ← parsed source
  program.analyze [] []
  let text ← emitted program
  Traced.report (.compiled source.length text.utf8ByteSize)
  return text

end Offside
