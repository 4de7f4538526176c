import Switchboard.Text.Printable

/-! Texts between quotation marks, as diagnostics show them: what would not show on a page by itself
    is escaped. -/

namespace Switchboard
namespace Text

/-- A number in lower-case hexadecimal digits. -/
def hex (n : Nat) : String := String.ofList (Nat.toDigits 16 n)

def escaped (c : Char) : String :=
  match c with
  | '\x00' => "\\0"
  | '\t' => "\\t"
  | '\n' => "\\n"
  | '\r' => "\\r"
  | '"' => "\\\""
  | '\\' => "\\\\"
  | c => if isPrintable c then c.toString else "\\u\x7b" ++ hex c.toNat ++ "\x7d"

def quoted (s : String) : String :=
  s.foldl (fun out c => out ++ escaped c) "\"" ++ "\""

end Text
end Switchboard
