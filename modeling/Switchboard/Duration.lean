/-! Spans of time in whole nanoseconds, and their text: the largest unit of s, ms, µs and ns that is
    not zero, with as many places as needed. -/

namespace Switchboard

structure Duration where
  nanoseconds : Nat
  deriving DecidableEq, Repr

namespace Duration

def ofMilliseconds (n : Nat) : Duration := ⟨n * 1000000⟩

def ofMicroseconds (n : Nat) : Duration := ⟨n * 1000⟩

/-- The quotient by a power of ten, with the fraction's trailing zeros dropped. -/
def decimal (n : Nat) (places : Nat) : String :=
  let unit := Nat.pow 10 places
  let digits := (Nat.toDigits 10 (n % unit + unit)).drop 1
  let fraction := (digits.reverse.dropWhile (· == '0')).reverse
  toString (n / unit) ++ (if fraction.isEmpty then "" else "." ++ String.ofList fraction)

def text (d : Duration) : String :=
  let n := d.nanoseconds
  if 1000000000 ≤ n then decimal n 9 ++ "s"
  else if 1000000 ≤ n then decimal n 6 ++ "ms"
  else if 1000 ≤ n then decimal n 3 ++ "µs"
  else decimal n 0 ++ "ns"

end Duration
end Switchboard
