/-! Values of JavaScript Object Notation. -/

namespace Switchboard

/-- A value. The fields of an object are in ascending order of their names, each once; a number without
    fraction and exponent is an integer if it fits 64 bits, and a double otherwise. -/
inductive Json where
  | null
  | bool (b : Bool)
  | int (n : Int)
  | float (x : Float)
  | string (s : String)
  | array (items : List Json)
  | object (fields : List (String × Json))
  deriving Inhabited

namespace Json

def field? (name : String) : Json → Option Json
  | object fields => (fields.find? fun f => f.1 == name).map (·.2)
  | _ => none

end Json
end Switchboard
