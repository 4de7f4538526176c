import Switchboard.Packet.Content

/-! Messages as fields that follow one another, each a key and a value. The key holds the field's number
    and the form of the value: a number in groups of seven bits, four or eight octets, a length and so
    many octets, or a group of fields. Fields that a message does not know are passed over. -/

namespace Switchboard
namespace Protobuf

/-! ### Numbers -/

/-- A number in groups of seven bits, lowest first; all octets but the last have their top bit set. -/
def varint (n : Nat) : Bytes :=
  if n < 128 then [UInt8.ofNat n] else UInt8.ofNat (n % 128 + 128) :: varint (n / 128)
termination_by n

/-- Reads a number below `2 ^ 64`; `place` counts the octets before, of which there are at most nine. -/
def readVarint (place : Nat) (value : Nat) : Bytes → Option (Nat × Bytes)
  | [] => none
  | b :: rest =>
    if 9 < place then none
    else
      let value := value + b.toNat % 128 * Nat.pow 128 place
      if 128 ≤ b.toNat then readVarint (place + 1) value rest
      else if place = 9 ∧ 2 ≤ b.toNat then none
      else some (value, rest)

def number (bs : Bytes) : Option (Nat × Bytes) := readVarint 0 0 bs

/-- The signed number whose 64 bits are those of `n`. -/
def signed (n : Nat) : Int := Int.bmod n 0x10000000000000000

/-- The number with the 64 bits of a signed number. -/
def unsigned (n : Int) : Nat := (n % 0x10000000000000000).toNat

/-! ### Keys -/

inductive Form where
  | varint
  | eight
  | delimited
  | groupStart
  | groupEnd
  | four
  deriving DecidableEq

def Form.toNat : Form → Nat
  | varint => 0
  | eight => 1
  | delimited => 2
  | groupStart => 3
  | groupEnd => 4
  | four => 5

def Form.ofNat? (n : Nat) : Option Form :=
  [varint, eight, delimited, groupStart, groupEnd, four][n]?

/-- A field's number and form at the front, and what follows. -/
def readKey (bs : Bytes) : Option ((Nat × Form) × Bytes) := do
  let (key, rest) ← number bs
  if 0x100000000 ≤ key then none
  else
    let form ← Form.ofNat? (key % 8)
    if key / 8 = 0 then none else some ((key / 8, form), rest)

def key (field : Nat) (form : Form) : Bytes := varint (field * 8 + form.toNat)

/-! ### Values -/

def delimited (bs : Bytes) : Option (Bytes × Bytes) := do
  let (n, rest) ← number bs
  Bytes.cut n rest

def depthLimit : Nat := 100

/-- Passes over the value of an unknown field, or over the rest of the group with a given number;
    `fuel` bounds the fields in it. -/
def skip : Nat → Nat → (Nat × Form) ⊕ Nat → Bytes → Option Bytes
  | 0, _, _, _ => none
  | _, 0, .inl _, _ => none
  | _ + 1, _ + 1, .inl (_, .varint), bs => (number bs).map (·.2)
  | _ + 1, _ + 1, .inl (_, .eight), bs => (Bytes.cut 8 bs).map (·.2)
  | _ + 1, _ + 1, .inl (_, .four), bs => (Bytes.cut 4 bs).map (·.2)
  | _ + 1, _ + 1, .inl (_, .delimited), bs => (delimited bs).map (·.2)
  | fuel + 1, depth + 1, .inl (field, .groupStart), bs => skip fuel depth (.inr field) bs
  | _ + 1, _ + 1, .inl (_, .groupEnd), _ => none
  | fuel + 1, depth, .inr field, bs => do
    let ((inner, form), rest) ← readKey bs
    if form = .groupEnd then
      if inner = field then some rest else none
    else
      let rest ← skip fuel depth (.inl (inner, form)) rest
      skip fuel depth (.inr field) rest

def skipField (field : Nat) (form : Form) (bs : Bytes) : Option Bytes :=
  skip (2 * bs.length + 2) depthLimit (.inl (field, form)) bs

/-- Reads fields up to the end into a message; each takes up an octet, so as many steps as octets
    suffice. -/
def readFields {α : Type} (field : α → Nat → Form → Bytes → Option (α × Bytes)) :
    Nat → α → Bytes → Option α
  | _, a, [] => some a
  | 0, _, _ :: _ => none
  | fuel + 1, a, bs => do
    let ((n, form), rest) ← readKey bs
    let (a, rest) ← field a n form rest
    readFields field fuel a rest

def decode {α : Type} (field : α → Nat → Form → Bytes → Option (α × Bytes)) (start : α) (bs : Bytes) :
    Except Fault α :=
  match readFields field bs.length start bs with
  | some a => .ok a
  | none => .error .protobufMalformed

/-! ### A message of two signed numbers -/

/-- Two signed 64-bit numbers, in the fields 1 and 2. -/
structure Addends where
  a : Int := 0
  b : Int := 0
  deriving DecidableEq

namespace Addends

def field (m : Addends) (n : Nat) (form : Form) (bs : Bytes) : Option (Addends × Bytes) :=
  if n = 1 ∨ n = 2 then
    if form = .varint then
      (number bs).map fun (value, rest) =>
        (if n = 1 then { m with a := signed value } else { m with b := signed value }, rest)
    else none
  else (skipField n form bs).map fun rest => (m, rest)

/-- A number in a field, unless it is 0. -/
def part (n : Nat) (value : Int) : Bytes :=
  if value = 0 then [] else key n .varint ++ varint (unsigned value)

def encode (m : Addends) : Bytes := part 1 m.a ++ part 2 m.b

def codec : Codec Addends where
  encode m := .ok m.encode
  decode := Protobuf.decode field {}

end Addends

/-! ### A message of a text, numbers and octets -/

/-- A text in field 1, unsigned 32-bit numbers in field 2, and octets in field 3. -/
structure Note where
  text : String := ""
  numbers : List UInt32 := []
  octets : Bytes := []
  deriving DecidableEq

namespace Note

/-- Numbers one after another up to the end, kept to 32 bits; `done` are those before, last first, and
    as many steps as octets suffice. -/
def packed : Nat → Bytes → List UInt32 → Option (List UInt32)
  | _, [], done => some done
  | 0, _ :: _, _ => none
  | fuel + 1, bs, done => do
    let (n, rest) ← number bs
    packed fuel rest (UInt32.ofNat n :: done)

/-- Reads the value of a field. Numbers come one by one or packed together; while a message is read they
    are held last first. -/
def field (m : Note) (n : Nat) (form : Form) (bs : Bytes) : Option (Note × Bytes) :=
  match n, form with
  | 1, .delimited => do
    let (octets, rest) ← delimited bs
    let text ← Text.ofBytes? octets
    return ({ m with text }, rest)
  | 2, .delimited => do
    let (octets, rest) ← delimited bs
    let numbers ← packed octets.length octets m.numbers
    return ({ m with numbers }, rest)
  | 2, .varint =>
    (number bs).map fun (value, rest) => ({ m with numbers := UInt32.ofNat value :: m.numbers }, rest)
  | 3, .delimited => (delimited bs).map fun (octets, rest) => ({ m with octets }, rest)
  | 1, _ | 2, _ | 3, _ => none
  | n, form => (skipField n form bs).map fun rest => (m, rest)

def decode (bs : Bytes) : Except Fault Note :=
  (Protobuf.decode field {} bs).map fun m => { m with numbers := m.numbers.reverse }

/-- Octets in a field, unless there are none. -/
def part (n : Nat) (octets : Bytes) : Bytes :=
  if octets.isEmpty then [] else key n .delimited ++ varint octets.length ++ octets

def encode (m : Note) : Bytes :=
  part 1 (Text.bytes m.text) ++ part 2 (m.numbers.flatMap fun n => varint n.toNat) ++ part 3 m.octets

def codec : Codec Note where
  encode m := .ok m.encode
  decode

end Note
end Protobuf
end Switchboard
