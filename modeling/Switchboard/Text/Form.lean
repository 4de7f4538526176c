import Switchboard.Text.Utf8

/-! Pairs of texts as `application/x-www-form-urlencoded`: `name=value` joined by `&`, a space as `+`,
    and every octet outside a small safe set as `%` and two hexadecimal digits. -/

namespace Switchboard
namespace Text
namespace Form

/-- The octets that stand for themselves. -/
def isSafe (b : UInt8) : Bool :=
  let c := Char.ofNat b.toNat
  c.isAlphanum || c == '*' || c == '-' || c == '.' || c == '_'

def digit (n : Nat) : Char := (Nat.digitChar n).toUpper

def escape (b : UInt8) : List Char :=
  if isSafe b then [Char.ofNat b.toNat]
  else if b == 0x20 then ['+']
  else ['%', digit (b.toNat / 16), digit (b.toNat % 16)]

def component (s : String) : List Char := (bytes s).flatMap escape

def encode (pairs : List (String × String)) : String :=
  let parts := pairs.map fun (name, value) => component name ++ '=' :: component value
  String.ofList (List.intercalate ['&'] parts)

def digitValue? (b : UInt8) : Option Nat :=
  if 0x30 ≤ b ∧ b ≤ 0x39 then some (b.toNat - 0x30)
  else if 0x41 ≤ b ∧ b ≤ 0x46 then some (b.toNat - 0x37)
  else if 0x61 ≤ b ∧ b ≤ 0x66 then some (b.toNat - 0x57)
  else none

/-- The octets that a written name or value stands for; a `%` without two digits stands for itself. -/
def unescape (bs : Bytes) : Bytes := go bs []
where
  go : Bytes → Bytes → Bytes
    | [], out => out.reverse
    | 0x25 :: h :: l :: rest, out =>
      match digitValue? h, digitValue? l with
      | some high, some low => go rest (UInt8.ofNat (high * 16 + low) :: out)
      | _, _ => go (h :: l :: rest) (0x25 :: out)
    | b :: rest, out => go rest ((if b == 0x2B then 0x20 else b) :: out)

/-- One written pair: the name ends at the first `=`, and without one the value is empty. -/
def pair (bs : Bytes) : String × String :=
  (lossy (unescape (bs.takeWhile (· != 0x3D))), lossy (unescape ((bs.dropWhile (· != 0x3D)).drop 1)))

/-- The parts of a written list of pairs that lie between the marks `&`. -/
def parts (bs : Bytes) : List Bytes := go bs [] []
where
  go : Bytes → Bytes → List Bytes → List Bytes
    | [], part, done => (part.reverse :: done).reverse
    | b :: rest, part, done => if b == 0x26 then go rest [] (part.reverse :: done) else go rest (b :: part) done

/-- The pairs that a text stands for; every text stands for some. -/
def decode (s : String) : List (String × String) :=
  ((parts (bytes s)).filter fun part => !part.isEmpty).map pair

end Form
end Text
end Switchboard
