import Switchboard.Bytes
import Switchboard.Json.Numeral
import Switchboard.Text.Utf8

/-! The words of a text in JavaScript Object Notation: marks, names, numbers and strings, with blanks
    between them. -/

namespace Switchboard
namespace Json

/-- A part of a string: an octet, or a code unit of sixteen bits that is written by its number. -/
inductive Part where
  | octet (b : UInt8)
  | unit (n : Nat)
  deriving DecidableEq

inductive Token where
  | openArray
  | closeArray
  | openObject
  | closeObject
  | comma
  | colon
  | null
  | bool (b : Bool)
  | number (n : Numeral)
  | string (parts : List Part)
  deriving DecidableEq

namespace Token

/-! ### Strings -/

def charOctets (n : Nat) : List UInt8 := String.utf8EncodeChar (Char.ofNat n)

/-- The octets of a string, last first; code units in pairs make one character, and a half of a pair
    alone makes none. -/
def octets? : List Part → List UInt8 → Option (List UInt8)
  | [], done => some done
  | .octet b :: rest, done => octets? rest (b :: done)
  | .unit high :: .unit low :: rest, done =>
    if 0xD800 ≤ high ∧ high < 0xDC00 then
      if 0xDC00 ≤ low ∧ low < 0xE000 then
        let n := 0x10000 + (high - 0xD800) * 0x400 + (low - 0xDC00)
        octets? rest ((charOctets n).reverse ++ done)
      else none
    else if 0xDC00 ≤ high ∧ high < 0xE000 then none
    else octets? (.unit low :: rest) ((charOctets high).reverse ++ done)
  | .unit n :: rest, done =>
    if 0xD800 ≤ n ∧ n < 0xE000 then none else octets? rest ((charOctets n).reverse ++ done)

/-- The text of a string, if it is one. -/
def text? (parts : List Part) : Option String :=
  (octets? parts []).bind fun done => Text.ofBytes? done.reverse

def hexValue? (b : UInt8) : Option Nat :=
  if 0x30 ≤ b ∧ b ≤ 0x39 then some (b.toNat - 0x30)
  else if 0x41 ≤ b ∧ b ≤ 0x46 then some (b.toNat - 0x37)
  else if 0x61 ≤ b ∧ b ≤ 0x66 then some (b.toNat - 0x57)
  else none

/-- The octet that a letter after a backslash stands for. -/
def escape? (b : UInt8) : Option UInt8 :=
  match b with
  | 0x22 => some 0x22
  | 0x5C => some 0x5C
  | 0x2F => some 0x2F
  | 0x62 => some 0x08
  | 0x66 => some 0x0C
  | 0x6E => some 0x0A
  | 0x72 => some 0x0D
  | 0x74 => some 0x09
  | _ => none

/-- A string up to its closing mark, and what follows. -/
def scanString : Bytes → List Part → Option (List Part × Bytes)
  | [], _ => none
  | 0x22 :: rest, parts => some (parts.reverse, rest)
  | 0x5C :: 0x75 :: a :: b :: c :: d :: rest, parts =>
    match hexValue? a, hexValue? b, hexValue? c, hexValue? d with
    | some a, some b, some c, some d =>
      scanString rest (.unit (a * 4096 + b * 256 + c * 16 + d) :: parts)
    | _, _, _, _ => none
  | 0x5C :: b :: rest, parts =>
    match escape? b with
    | some e => scanString rest (.octet e :: parts)
    | none => none
  | b :: rest, parts => if b < 0x20 ∨ b = 0x5C then none else scanString rest (.octet b :: parts)

/-! ### Numbers -/

def isDigit (b : UInt8) : Bool := 0x30 ≤ b && b ≤ 0x39

def digits (bs : Bytes) : List Nat × Bytes :=
  ((bs.takeWhile isDigit).map fun b => b.toNat - 0x30, bs.dropWhile isDigit)

/-- At least one digit at the front, and what follows. -/
def someDigits? (bs : Bytes) : Option (List Nat × Bytes) :=
  let (ds, rest) := digits bs
  if ds.isEmpty then none else some (ds, rest)

/-- The digits before the point: a 0 stands alone. -/
def wholeDigits? (bs : Bytes) : Option (List Nat × Bytes) := do
  let (ds, rest) ← someDigits? bs
  if ds.head? == some 0 && ds.length != 1 then none else some (ds, rest)

/-- A point with digits, if there is one, and what follows. -/
def fraction? : Bytes → Option (Option (List Nat) × Bytes)
  | 0x2E :: rest => (someDigits? rest).map fun (ds, rest) => (some ds, rest)
  | bs => some (none, bs)

/-- An exponent, if there is one, and what follows. -/
def exponent? : Bytes → Option (Option (Bool × List Nat) × Bytes)
  | b :: rest =>
    if b == 0x65 || b == 0x45 then
      let (negative, rest) :=
        match rest with
        | 0x2D :: rest => (true, rest)
        | 0x2B :: rest => (false, rest)
        | rest => (false, rest)
      (someDigits? rest).map fun (ds, rest) => (some (negative, ds), rest)
    else some (none, b :: rest)
  | [] => some (none, [])

def scanNumber (bs : Bytes) : Option (Numeral × Bytes) := do
  let (negative, bs) :=
    match bs with
    | 0x2D :: rest => (true, rest)
    | bs => (false, bs)
  let (whole, bs) ← wholeDigits? bs
  let (fraction, bs) ← fraction? bs
  let (exponent, bs) ← exponent? bs
  return ({ negative, whole, fraction, exponent }, bs)

/-! ### All words -/

def isBlank (b : UInt8) : Bool := b == 0x20 || b == 0x0A || b == 0x0D || b == 0x09

/-- The word at the front, where there is no blank, and what follows. -/
def scanOne : Bytes → Option (Token × Bytes)
  | 0x5B :: rest => some (openArray, rest)
  | 0x5D :: rest => some (closeArray, rest)
  | 0x7B :: rest => some (openObject, rest)
  | 0x7D :: rest => some (closeObject, rest)
  | 0x2C :: rest => some (comma, rest)
  | 0x3A :: rest => some (colon, rest)
  | 0x22 :: rest => (scanString rest []).map fun (parts, rest) => (string parts, rest)
  | 0x6E :: 0x75 :: 0x6C :: 0x6C :: rest => some (null, rest)
  | 0x74 :: 0x72 :: 0x75 :: 0x65 :: rest => some (bool true, rest)
  | 0x66 :: 0x61 :: 0x6C :: 0x73 :: 0x65 :: rest => some (bool false, rest)
  | bs => (scanNumber bs).map fun (n, rest) => (number n, rest)

/-- The words up to the end; `done` are those before, last first. Each takes up an octet, so as many
    steps as octets suffice. -/
def scanSteps : Nat → Bytes → List Token → Option (List Token)
  | _, [], done => some done.reverse
  | 0, _ :: _, _ => none
  | fuel + 1, b :: rest, done =>
    if isBlank b then scanSteps fuel rest done
    else
      match scanOne (b :: rest) with
      | some (token, rest) => scanSteps fuel rest (token :: done)
      | none => none

def scan (bs : Bytes) : Option (List Token) := scanSteps bs.length bs []

end Token
end Json
end Switchboard
