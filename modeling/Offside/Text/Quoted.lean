import Offside.Text.Invisible

/-!
# Quoted text

Text between double quotes on one line. The double quote and the backslash are
escaped, and so is everything that does not show what it is; all other characters
stand for themselves, the single quote among them.
-/

namespace Offside.Text

/-- A character inside quotes. -/
def escaped (char : Char) : String :=
  match char with
  | '\x00' => "\\0"
  | '\t' => "\\t"
  | '\r' => "\\r"
  | '\n' => "\\n"
  | '"' => "\\\""
  | '\\' => "\\\\"
  | _ =>
      if isInvisible char then
        "\\u\x7b" ++ String.ofList (Nat.toDigits 16 char.toNat) ++ "\x7d"
      else String.singleton char

/-- A text between quotes. -/
def quoted (text : String) : String :=
  "\"" ++ String.join (text.toList.map escaped) ++ "\""

end Offside.Text
