import Offside.Event
import Offside.Text.Quoted

/-!
# Log lines

The wording of events. Every entry of a log has a level, the part of the program
it comes from, and a message that ends with the event's data.
-/

namespace Offside

/-- How much detail an entry carries. -/
inductive Level where
  | info
  | debug
  | trace
  deriving DecidableEq, Repr

namespace Level

/-- The label of a level, five characters wide. -/
def label : Level → String
  | info => " INFO"
  | debug => "DEBUG"
  | trace => "TRACE"

/-- How often more detail has to be asked for until entries of a level show. -/
def threshold : Level → Nat
  | info => 1
  | debug => 2
  | trace => 3

/-- Whether entries of a level show at this verbosity. -/
def shownAt (level : Level) (verbosity : Nat) : Bool :=
  decide (level.threshold ≤ verbosity)

end Level

/-- One entry of a log. -/
structure LogEntry where
  level : Level
  source : String
  message : String
  deriving DecidableEq, Repr

namespace LogEntry

/-- An entry as a line of text. -/
def render (entry : LogEntry) : String :=
  entry.level.label ++ " " ++ entry.source ++ ": " ++ entry.message ++ "\n"

/-- A piece of data in a message: a name and a value. -/
def field (name value : String) : String :=
  " " ++ name ++ "=" ++ value

/-- A number in a message. -/
def count (name : String) (value : Nat) : String :=
  field name (toString value)

end LogEntry

open LogEntry in
/-- The log entry of an event. -/
def Event.entry : Event → LogEntry
  | scanned tokens lines =>
      ⟨.debug, "gotype_core::lexer",
        "lexed source" ++ count "tokens" tokens ++ count "lines" lines⟩
  | laidOut tokens blocks =>
      ⟨.debug, "gotype_core::indent",
        "normalized indentation" ++ count "tokens" tokens ++ count "blocks" blocks⟩
  | notACall failure =>
      ⟨.trace, "gotype_core::parser",
        "declaration value is not a call" ++ field "err" failure.render⟩
  | rewound start target =>
      ⟨.trace, "gotype_core::parser",
        "rewinding parser" ++ count "from" start ++ count "to" target⟩
  | hoisted name index =>
      ⟨.trace, "gotype_core::parser",
        "hoisted function" ++ field "name" name ++ count "index" index⟩
  | parsed statements functions =>
      ⟨.debug, "gotype_core::parser",
        "parsed program" ++ count "statements" statements ++ count "functions" functions⟩
  | enteredScope depth =>
      ⟨.trace, "gotype_core::analyzer", "entered scope" ++ count "depth" depth⟩
  | leftScope depth =>
      ⟨.trace, "gotype_core::analyzer", "left scope" ++ count "depth" depth⟩
  | widened value expected =>
      ⟨.trace, "gotype_core::analyzer",
        "widened value" ++ field "from" (Text.quoted value) ++
          field "to" (Text.quoted expected)⟩
  | analyzed statements functions =>
      ⟨.debug, "gotype_core::analyzer",
        "analysis passed" ++ count "statements" statements ++ count "functions" functions⟩
  | emitted bytes =>
      ⟨.debug, "gotype_core::codegen_go", "emitted go source" ++ count "bytes" bytes⟩
  | compiled input output =>
      ⟨.info, "gotype_core::compiler",
        "compiled gotype source" ++ count "input" input ++ count "output" output⟩

end Offside
