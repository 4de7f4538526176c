/-! The shortest decimal that reads back as a given double: of all decimals that round to it, one with
    the fewest digits, of these the nearest, and of two as near the one with the even last digit. -/

namespace Switchboard
namespace Decimal

structure Scientific where
  digits : Nat
  exponent : Int
  deriving DecidableEq, Repr

/-- The positive number `mantissa · 2 ^ exponent`; `edge` when the doubles below it lie closer together
    than those above. -/
structure Binary where
  mantissa : Nat
  exponent : Int
  edge : Bool
  deriving DecidableEq, Repr

/-- The size of a finite double, from its bits. -/
def Binary.ofBits (bits : UInt64) : Binary :=
  let fraction : Nat := bits.toNat % Nat.pow 2 52
  let biased : Nat := bits.toNat / Nat.pow 2 52 % Nat.pow 2 11
  if biased = 0 then ⟨fraction, -1074, false⟩
  else ⟨fraction + Nat.pow 2 52, (biased : Int) - 1075, fraction == 0 && 1 < biased⟩

/-- A comparison of quarters of a binary number's unit with multiples of a power of ten: `x` quarters
    are at most `c` multiples exactly when `x * quarter ≤ c * step`. -/
structure Grid where
  quarter : Nat
  step : Nat

/-- The grid of the multiples of `10 ^ k`. -/
def Binary.grid (b : Binary) (k : Int) : Grid :=
  let e := b.exponent - 2
  { quarter := Nat.pow 2 e.toNat * Nat.pow 10 (-k).toNat
    step := Nat.pow 2 (-e).toNat * Nat.pow 10 k.toNat }

/-- The number of decimal digits before the point, or minus the number of zeros after it. -/
def Binary.magnitude (b : Binary) : Int :=
  let whole := 4 * b.mantissa * (b.grid 0).quarter / (b.grid 0).step
  if whole = 0 then
    let zeros := (List.range 400).takeWhile fun (j : Nat) =>
      let g := b.grid (-(j + 1 : Int))
      4 * b.mantissa * g.quarter < g.step
    Int.negOfNat zeros.length
  else (Nat.toDigits 10 whole).length

/-- The neighbour of `b` on a grid that rounds to `b`, if there is one; of two the nearer. -/
def Binary.onGrid (b : Binary) (g : Grid) : Option Nat :=
  let value := 4 * b.mantissa * g.quarter
  let low := (4 * b.mantissa - (if b.edge then 1 else 2)) * g.quarter
  let high := (4 * b.mantissa + 2) * g.quarter
  let even := b.mantissa % 2 == 0
  let rounds := fun (c : Nat) =>
    let x := c * g.step
    if even then low ≤ x && x ≤ high else low < x && x < high
  let below := value / g.step
  let above := below + 1
  match rounds below, rounds above with
  | true, false => some below
  | false, true => some above
  | false, false => none
  | true, true =>
    let gap := value - below * g.step
    let gap' := above * g.step - value
    if gap < gap' then some below
    else if gap' < gap then some above
    else if below % 2 == 0 then some below else some above

/-- Drops the zeros at the end of the digits, at most as many as given. -/
def Scientific.trim (s : Scientific) : Nat → Scientific
  | 0 => s
  | fuel + 1 =>
    if s.digits ≠ 0 ∧ s.digits % 10 = 0 then trim ⟨s.digits / 10, s.exponent + 1⟩ fuel else s

/-- The shortest decimal that rounds to a positive number; 17 digits always suffice. -/
def Binary.shortest (b : Binary) : Scientific :=
  let m := b.magnitude
  let found := (List.range 17).findSome? fun (i : Nat) =>
    let k := m - (i + 1 : Int)
    (b.onGrid (b.grid k)).map fun c => (⟨c, k⟩ : Scientific)
  (found.getD ⟨0, 0⟩).trim 20

/-- Where positional notation ends and how an exponent is written. -/
structure Style where
  /-- The least power of ten of the first digit that is written positionally. -/
  least : Int
  /-- The first power of ten that is written with an exponent again. -/
  bound : Int
  deriving DecidableEq

/-- The digits with a point after the first `n`, if any digits are left. -/
def pointed (digits : List Char) (n : Nat) : String :=
  let rest := digits.drop n
  String.ofList (digits.take n) ++ (if rest.isEmpty then "" else "." ++ String.ofList rest)

/-- The text of a decimal. A whole number in positional notation ends in `.0`. -/
def Scientific.text (style : Style) (s : Scientific) : String :=
  let digits := Nat.toDigits 10 s.digits
  let power : Int := s.exponent + (digits.length - 1 : Nat)
  if power < style.least ∨ style.bound ≤ power then
    pointed digits 1 ++ (if power < 0 then "e-" else "e+") ++ toString power.natAbs
  else if power < 0 then
    "0." ++ String.ofList (List.replicate (power.natAbs - 1) '0' ++ digits)
  else if digits.length ≤ power.toNat + 1 then
    String.ofList (digits ++ List.replicate (power.toNat + 1 - digits.length) '0') ++ ".0"
  else pointed digits (power.toNat + 1)

def text (style : Style) (x : Float) : String :=
  let bits := x.toBits
  let sign := if bits.toNat < Nat.pow 2 63 then "" else "-"
  let size := Binary.ofBits bits
  sign ++ (if size.mantissa = 0 then "0.0" else size.shortest.text style)

end Decimal
end Switchboard
