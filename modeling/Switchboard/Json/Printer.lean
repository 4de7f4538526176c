import Switchboard.Decimal.Shortest
import Switchboard.Json.Basic
import Switchboard.Text.Quoted

/-! The text of a value, without any blanks. -/

namespace Switchboard
namespace Json

/-- Numbers are positional from `0.00001` up to sixteen digits before the point. -/
def numberStyle : Decimal.Style := { least := -5, bound := 16 }

def escaped (c : Char) : String :=
  match c with
  | '"' => "\\\""
  | '\\' => "\\\\"
  | '\n' => "\\n"
  | '\r' => "\\r"
  | '\t' => "\\t"
  | '\x08' => "\\b"
  | '\x0c' => "\\f"
  | c =>
    if c.toNat < 0x20 then "\\u00" ++ (if c.toNat < 0x10 then "0" else "") ++ Text.hex c.toNat
    else c.toString

/-- A string between quotation marks. -/
def printString (s : String) : String := s.foldl (fun out c => out ++ escaped c) "\"" ++ "\""

mutual
/-- A text with the text of a value after it. -/
def printOnto (out : String) : Json → String
  | null => out ++ "null"
  | bool true => out ++ "true"
  | bool false => out ++ "false"
  | int n => out ++ toString n
  | float x => out ++ Decimal.text numberStyle x
  | string s => out ++ printString s
  | array items => printItemsOnto (out ++ "[") items ++ "]"
  | object fields => printFieldsOnto (out ++ "\x7b") fields ++ "\x7d"

/-- A text with the items of an array after it, and commas between them. -/
def printItemsOnto (out : String) : List Json → String
  | [] => out
  | [item] => printOnto out item
  | item :: rest => printItemsOnto (printOnto out item ++ ",") rest

/-- A text with the fields of an object after it, and commas between them. -/
def printFieldsOnto (out : String) : List (String × Json) → String
  | [] => out
  | [(name, value)] => printOnto (out ++ printString name ++ ":") value
  | (name, value) :: rest => printFieldsOnto (printOnto (out ++ printString name ++ ":") value ++ ",") rest
end

def print (j : Json) : String := printOnto "" j

end Json
end Switchboard
