import Switchboard.Json.Basic

/-! Numbers as they are written, and what they stand for. A number without fraction and exponent is an
    integer if it fits 64 bits, signed or unsigned. Any other is read as a double by its first digits
    that fit an unsigned 64-bit number, scaled once by a power of ten; so its last bit may be off. -/

namespace Switchboard
namespace Json

structure Numeral where
  negative : Bool
  whole : List Nat
  /-- The digits after the point, if there is one. -/
  fraction : Option (List Nat)
  /-- The sign and the digits of the exponent, if there is one; true for minus. -/
  exponent : Option (Bool × List Nat)
  deriving DecidableEq

namespace Numeral

def digitsValue (digits : List Nat) : Nat := digits.foldl (fun n d => n * 10 + d) 0

/-- How many digits the greatest number of 64 bits has. -/
def integerDigits : Nat := 20

/-- The integer that is written, if there is neither point nor exponent; one of more than `integerDigits`
    digits fits no 64 bits and is none here. -/
def integer? (n : Numeral) : Option Int :=
  match n.fraction, n.exponent with
  | none, none =>
    if n.whole.length ≤ integerDigits then
      let size := digitsValue n.whole
      some (if n.negative then -(size : Int) else size)
    else none
  | _, _ => none

/-- Reads digits into a number as long as it fits 64 bits; also the digits left over. -/
def gather : Nat → List Nat → Nat × List Nat
  | n, [] => (n, [])
  | n, d :: rest => if n * 10 + d < 0x10000000000000000 then gather (n * 10 + d) rest else (n, d :: rest)

/-- The greatest power of ten that one multiplication scales by. -/
def greatestPower : Nat := 308

def power (k : Nat) : Float := Float.ofScientific 1 false k

/-- `x · 10 ^ e`; none if it is too large. Powers below the least are divided out in steps. -/
def scale (x : Float) (e : Int) : Nat → Option Float
  | 0 => some 0.0
  | fuel + 1 =>
    if e.natAbs ≤ greatestPower then
      if 0 ≤ e then
        let y := x * power e.toNat
        if y.isInf then none else some y
      else some (x / power e.natAbs)
    else if x == 0.0 then some x
    else if 0 ≤ e then none
    else scale (x / power greatestPower) (e + greatestPower) fuel

/-- The number that some digits make after those of `n`, if it fits 31 bits. -/
def smallExponent? (n : Nat) : List Nat → Option Nat
  | [] => some n
  | d :: rest => if n * 10 + d < 0x80000000 then smallExponent? (n * 10 + d) rest else none

/-- The double that is read for a number; none if it is too large. -/
def float? (n : Numeral) : Option Float :=
  let (lead, dropped) := gather 0 n.whole
  let (significand, shift) :=
    match n.fraction with
    | none => (lead, (dropped.length : Int))
    | some digits =>
      let (significand, rest) := gather lead digits
      (significand, (dropped.length : Int) - ((digits.length - rest.length : Nat) : Int))
  let size :=
    match n.exponent with
    | none => scale (Float.ofScientific significand false 0) shift 8
    | some (negative, digits) =>
      match smallExponent? 0 digits with
      | some e =>
        scale (Float.ofScientific significand false 0) (if negative then shift - e else shift + e) 8
      | none => if significand ≠ 0 ∧ !negative then none else some 0.0
  size.map fun x => if n.negative then -x else x

/-- The value that a number stands for; none if it is too large. -/
def value? (n : Numeral) : Option Json :=
  match n.integer? with
  | some i =>
    if n.negative ∧ i = 0 then some (.float (-0.0))
    else if -0x8000000000000000 ≤ i ∧ i < 0x10000000000000000 then some (.int i)
    else n.float?.map .float
  | none => n.float?.map .float

end Numeral
end Json
end Switchboard
