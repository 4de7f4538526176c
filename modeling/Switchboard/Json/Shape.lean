import Switchboard.Json.Printer
import Switchboard.Json.Token
import Switchboard.Packet.Content

/-! Values of a given shape, read from and written as text. A value that is not of the shape is refused;
    what a record does not name is skipped over, however deep it is. -/

namespace Switchboard
namespace Json

inductive Shape where
  /-- An integer within bounds, written without point and exponent. -/
  | integer (low high : Int)
  | bool
  | string
  | null
  /-- `null` or an integer within bounds. -/
  | optional (low high : Int)
  | strings
  /-- An object with these names, or an array in their order, of signed 64-bit integers. -/
  | record (names : List String)
  | any
  deriving DecidableEq

namespace Shape

def u8 : Shape := integer 0 0xFF
def u32 : Shape := integer 0 0xFFFFFFFF
def u64 : Shape := integer 0 0xFFFFFFFFFFFFFFFF
def i64 : Shape := integer (-0x8000000000000000) 0x7FFFFFFFFFFFFFFF
def optionalU32 : Shape := optional 0 0xFFFFFFFF
def addends : Shape := record ["a", "b"]
def sum : Shape := record ["sum"]

end Shape

/-! ### Values without a given shape -/

/-- An array or an object that has begun. -/
inductive Bracket where
  | array
  | object
  deriving DecidableEq

/-- Skips over a value and what follows it inside the brackets that have begun; `due` when a value is
    due next. -/
def skip (due : Bool) (begun : List Bracket) : List Token → Option (List Token)
  | [] => if due || !begun.isEmpty then none else some []
  | token :: rest =>
    if due then
      match token, rest with
      | .openArray, .closeArray :: rest => skip false begun rest
      | .openArray, rest => skip true (.array :: begun) rest
      | .openObject, .closeObject :: rest => skip false begun rest
      | .openObject, .string _ :: .colon :: rest => skip true (.object :: begun) rest
      | .null, rest | .bool _, rest | .number _, rest | .string _, rest => skip false begun rest
      | _, _ => none
    else
      match begun, token, rest with
      | [], token, rest => some (token :: rest)
      | .array :: outer, .closeArray, rest => skip false outer rest
      | .array :: _, .comma, rest => skip true begun rest
      | .object :: outer, .closeObject, rest => skip false outer rest
      | .object :: _, .comma, .string _ :: .colon :: rest => skip true begun rest
      | _, _, _ => none

/-- Items with commas between them up to a closing mark; `fuel` bounds their number. -/
def items {α : Type} (item : List Token → Option (α × List Token)) (close : Token) :
    Nat → List Token → List α → Option (List α × List Token)
  | 0, _, _ => none
  | fuel + 1, tokens, done =>
    match item tokens with
    | none => none
    | some (a, .comma :: rest) => items item close fuel rest (a :: done)
    | some (a, token :: rest) => if token = close then some ((a :: done).reverse, rest) else none
    | some (_, []) => none

/-- Items with commas between them up to a closing mark, or the closing mark alone. -/
def list {α : Type} (item : List Token → Option (α × List Token)) (close : Token)
    (tokens : List Token) : Option (List α × List Token) :=
  match tokens with
  | token :: rest => if token = close then some ([], rest) else items item close tokens.length tokens []
  | [] => none

def member {α : Type} (value : List Token → Option (α × List Token)) :
    List Token → Option ((String × α) × List Token)
  | .string parts :: .colon :: rest => do
    let name ← Token.text? parts
    let (a, rest) ← value rest
    return ((name, a), rest)
  | _ => none

/-- Files a field under its name in place of one there, in ascending order. -/
def setField (name : String) (value : Json) : List (String × Json) → List (String × Json)
  | [] => [(name, value)]
  | f :: rest =>
    if f.1 = name then (name, value) :: rest
    else if Text.before name f.1 then (name, value) :: f :: rest
    else f :: setField name value rest

/-- The object that some members make; of a repeated name the last counts. -/
def ofMembers (members : List (String × Json)) : Json :=
  object (members.foldl (fun fields m => setField m.1 m.2 fields) [])

/-- Any value with at most `depth` brackets around a part of it, and what follows. -/
def value : Nat → List Token → Option (Json × List Token)
  | _, .null :: rest => some (null, rest)
  | _, .bool b :: rest => some (bool b, rest)
  | _, .number n :: rest => n.value?.map fun j => (j, rest)
  | _, .string parts :: rest => (Token.text? parts).map fun s => (string s, rest)
  | depth + 1, .openArray :: rest =>
    (list (value depth) .closeArray rest).map fun (found, rest) => (array found, rest)
  | depth + 1, .openObject :: rest =>
    (list (member (value depth)) .closeObject rest).map fun (found, rest) => (ofMembers found, rest)
  | _, _ => none

def depthLimit : Nat := 127

/-! ### Values of a shape -/

def integer (low high : Int) : List Token → Option (Json × List Token)
  | .number n :: rest =>
    match n.integer? with
    | some i =>
      if n.negative ∧ i = 0 then none else if low ≤ i ∧ i ≤ high then some (int i, rest) else none
    | none => none
  | _ => none

def signed64 : List Token → Option (Json × List Token) :=
  integer (-0x8000000000000000) 0x7FFFFFFFFFFFFFFF

def text : List Token → Option (String × List Token)
  | .string parts :: rest => (Token.text? parts).map fun s => (s, rest)
  | _ => none

/-- A member of a record: a signed 64-bit integer under a known name, and otherwise anything. -/
def recordMember (names : List String) : List Token → Option ((String × Option Json) × List Token)
  | .string parts :: .colon :: rest => do
    let name ← Token.text? parts
    if name ∈ names then
      let (n, rest) ← signed64 rest
      return ((name, some n), rest)
    else
      let rest ← skip true [] rest
      return ((name, none), rest)
  | _ => none

def only (found : List (String × Option Json)) (name : String) : Option (String × Json) :=
  match found.filter fun f => f.1 == name with
  | [(_, some j)] => some (name, j)
  | _ => none

/-- Exactly one integer for each name with commas between them, up to the closing mark. -/
def recordItems : List String → List Token → Option (List (String × Json) × List Token)
  | [], .closeArray :: rest => some ([], rest)
  | [], _ => none
  | [name], tokens => do
    let (n, rest) ← signed64 tokens
    let (more, rest) ← recordItems [] rest
    return ((name, n) :: more, rest)
  | name :: names, tokens => do
    let (n, rest) ← signed64 tokens
    match rest with
    | .comma :: rest =>
      let (more, rest) ← recordItems names rest
      return ((name, n) :: more, rest)
    | _ => none

def record (names : List String) : List Token → Option (Json × List Token)
  | .openObject :: rest => do
    let (found, rest) ← list (recordMember names) .closeObject rest
    let fields ← names.mapM (only found)
    return (object fields, rest)
  | .openArray :: rest => (recordItems names rest).map fun (fields, rest) => (object fields, rest)
  | _ => none

def shaped (shape : Shape) (tokens : List Token) : Option (Json × List Token) :=
  match shape with
  | .integer low high => integer low high tokens
  | .bool =>
    match tokens with
    | .bool b :: rest => some (bool b, rest)
    | _ => none
  | .string => (text tokens).map fun (s, rest) => (string s, rest)
  | .null =>
    match tokens with
    | .null :: rest => some (null, rest)
    | _ => none
  | .optional low high =>
    match tokens with
    | .null :: rest => some (null, rest)
    | tokens => integer low high tokens
  | .strings =>
    match tokens with
    | .openArray :: rest =>
      (list text .closeArray rest).map fun (found, rest) => (array (found.map string), rest)
    | _ => none
  | .record names => record names tokens
  | .any => value depthLimit tokens

/-- The value of a shape that a text consists of. -/
def parse? (shape : Shape) (bs : Bytes) : Option Json := do
  let tokens ← Token.scan bs
  match ← shaped shape tokens with
  | (j, []) => some j
  | (_, _ :: _) => none

/-! ### Payloads -/

/-- An application value: one that has a text, or one that has none. -/
inductive Message where
  | json (j : Json)
  | unencodable

def Message.encode : Message → Except Fault Bytes
  | .json j => .ok (Text.bytes j.print)
  | .unencodable => .error .jsonUnencodable

def decode (shape : Shape) (bs : Bytes) : Except Fault Json :=
  match parse? shape bs with
  | some j => .ok j
  | none => .error .jsonMalformed

def codec (shape : Shape) : Codec Json where
  encode j := .ok (Text.bytes j.print)
  decode := decode shape

end Json
end Switchboard
