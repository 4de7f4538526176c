import Switchboard.Toml.Basic

/-! The lines of a TOML document. A parser takes characters and gives what it read with the characters
    that follow, or nothing. -/

namespace Switchboard
namespace Toml

abbrev Reader (α : Type) := List Char → Option (α × List Char)

/-! ### Characters -/

def isBlank (c : Char) : Bool := c == ' ' || c == '\t'

def skipBlanks (cs : List Char) : List Char := cs.dropWhile isBlank

/-- Any character but the controls; the tab is allowed. -/
def isText (c : Char) : Bool := c == '\t' || (0x20 ≤ c.toNat && c.toNat != 0x7F)

def newline : Reader Unit
  | '\n' :: rest => some ((), rest)
  | '\r' :: '\n' :: rest => some ((), rest)
  | _ => none

/-- Passes over a comment, up to the end of the line. -/
def skipComment : List Char → List Char
  | '#' :: rest => rest.dropWhile isText
  | cs => cs

/-- The value of a digit in some base. -/
def digit? (base : Nat) (c : Char) : Option Nat :=
  let n :=
    if '0' ≤ c ∧ c ≤ '9' then c.toNat - 48
    else if 'a' ≤ c ∧ c ≤ 'f' then c.toNat - 87
    else if 'A' ≤ c ∧ c ≤ 'F' then c.toNat - 55
    else base
  if n < base then some n else none

/-- At least one digit, with single underscores between digits, and what follows. -/
def digits (base : Nat) : Reader (List Nat)
  | [] => none
  | c :: rest =>
    match digit? base c with
    | none => none
    | some d => some (go [d] rest)
where
  go : List Nat → List Char → List Nat × List Char
    | ds, '_' :: c :: rest =>
      match digit? base c with
      | some d => go (d :: ds) rest
      | none => (ds.reverse, '_' :: c :: rest)
    | ds, c :: rest =>
      match digit? base c with
      | some d => go (d :: ds) rest
      | none => (ds.reverse, c :: rest)
    | ds, [] => (ds.reverse, [])

def numberOf (base : Nat) (ds : List Nat) : Nat := ds.foldl (fun n d => n * base + d) 0

/-! ### Strings -/

/-- So many hexadecimal digits that name a character. -/
def namedChar (count : Nat) (cs : List Char) : Option (Char × List Char) := do
  let ds ← (cs.take count).mapM (digit? 16)
  let n := numberOf 16 ds
  if ds.length = count ∧ (n < 0xD800 ∨ (0xE000 ≤ n ∧ n ≤ 0x10FFFF)) then some (Char.ofNat n, cs.drop count)
  else none

def escape : Reader Char
  | 'b' :: rest => some ('\x08', rest)
  | 't' :: rest => some ('\t', rest)
  | 'n' :: rest => some ('\n', rest)
  | 'f' :: rest => some ('\x0c', rest)
  | 'r' :: rest => some ('\r', rest)
  | '"' :: rest => some ('"', rest)
  | '\\' :: rest => some ('\\', rest)
  | 'u' :: rest => namedChar 4 rest
  | 'U' :: rest => namedChar 8 rest
  | _ => none

/-- The rest of a string in double quotes; `fuel` bounds its characters. -/
def basicString : Nat → List Char → List Char → Option (String × List Char)
  | 0, _, _ => none
  | _, _, [] => none
  | _ + 1, done, '"' :: rest => some (String.ofList done.reverse, rest)
  | fuel + 1, done, '\\' :: rest => do
    let (c, rest) ← escape rest
    basicString fuel (c :: done) rest
  | fuel + 1, done, c :: rest => if isText c then basicString fuel (c :: done) rest else none

def literalString (cs : List Char) : Option (String × List Char) :=
  let inside := cs.takeWhile fun c => c != '\'' && isText c
  match cs.drop inside.length with
  | '\'' :: rest => some (String.ofList inside, rest)
  | _ => none

def skipSpace : List Char → List Char
  | [] => []
  | '\r' :: '\n' :: rest => skipSpace rest
  | c :: rest => if c == '\n' || isBlank c then skipSpace rest else c :: rest

/-- A backslash at the end of a line: blanks and line ends up to the next other character. -/
def skipBreak (cs : List Char) : Option (List Char) :=
  (newline (skipBlanks cs)).map fun ((), rest) => skipSpace rest

/-- The rest of a string of several lines between three quotes; up to two more may end it. -/
def longString (quote : Char) (escapes : Bool) : Nat → List Char → List Char → Option (String × List Char)
  | 0, _, _ => none
  | fuel + 1, done, cs =>
    let quotes := (cs.takeWhile (· == quote)).length
    if 3 ≤ quotes then
      if quotes ≤ 5 then
        some (String.ofList (done.reverse ++ List.replicate (quotes - 3) quote), cs.drop quotes)
      else none
    else
      match newline cs with
      | some ((), rest) => longString quote escapes fuel ('\n' :: done) rest
      | none =>
        match cs with
        | [] => none
        | c :: rest =>
          if escapes && c == '\\' then
            match skipBreak rest with
            | some rest => longString quote escapes fuel done rest
            | none =>
              match escape rest with
              | some (e, rest) => longString quote escapes fuel (e :: done) rest
              | none => none
          else if isText c then longString quote escapes fuel (c :: done) rest
          else none

def skipFirstNewline (cs : List Char) : List Char :=
  match newline cs with
  | some ((), rest) => rest
  | none => cs

/-- A string on one line; `fuel` bounds its characters. -/
def shortString (fuel : Nat) : Reader String
  | '"' :: rest => basicString fuel [] rest
  | '\'' :: rest => literalString rest
  | _ => none

/-- A string; `fuel` bounds its characters. -/
def anyString (fuel : Nat) : Reader String
  | '"' :: '"' :: '"' :: rest => longString '"' true fuel [] (skipFirstNewline rest)
  | '\'' :: '\'' :: '\'' :: rest => longString '\'' false fuel [] (skipFirstNewline rest)
  | cs => shortString fuel cs

/-! ### Keys -/

def isBare (c : Char) : Bool := c.isAlphanum || c == '_' || c == '-'

/-- A key without dots outside quotes; `fuel` bounds its characters. -/
def simpleKey (fuel : Nat) (cs : List Char) : Option (String × List Char) :=
  match cs with
  | '"' :: _ | '\'' :: _ => shortString fuel cs
  | _ =>
    let bare := cs.takeWhile isBare
    if bare.isEmpty then none else some (String.ofList bare, cs.drop bare.length)

/-- A key with dots between its parts; `fuel` bounds its characters. -/
def dottedKey : Nat → List Char → Option (List String × List Char)
  | 0, _ => none
  | fuel + 1, cs => do
    let (first, rest) ← simpleKey fuel (skipBlanks cs)
    match skipBlanks rest with
    | '.' :: rest =>
      let (more, rest) ← dottedKey fuel rest
      some (first :: more, rest)
    | rest => some ([first], rest)

/-! ### Numbers and times -/

def integerOf (n : Int) : Option Toml := 
  if -0x8000000000000000 ≤ n ∧ n < 0x8000000000000000 then some (.integer n) else none

def sign : List Char → Option Bool × List Char
  | '+' :: rest => (some false, rest)
  | '-' :: rest => (some true, rest)
  | cs => (none, cs)

/-- Digits of which a 0 in front is the only one. -/
def wholeDigits : Reader (List Nat) := fun cs => do
  let (ds, rest) ← digits 10 cs
  if ds.head? == some 0 && ds.length != 1 then none else some (ds, rest)

def exponent : Reader Unit
  | c :: rest =>
    if c == 'e' || c == 'E' then (digits 10 (sign rest).2).map fun (_, rest) => ((), rest) else none
  | [] => none

def fraction : Reader Unit
  | '.' :: rest => do
    let (_, rest) ← digits 10 rest
    some (((exponent rest).getD ((), rest)))
  | _ => none

/-- An integer or a float in decimal digits, or one of the words for what is no number. -/
def decimal (cs : List Char) : Option (Toml × List Char) :=
  let (negative, unsigned) := sign cs
  match unsigned with
  | 'i' :: 'n' :: 'f' :: rest => some (.real, rest)
  | 'n' :: 'a' :: 'n' :: rest => some (.real, rest)
  | unsigned => do
    let (ds, rest) ← wholeDigits unsigned
    match (fraction rest).or (exponent rest) with
    | some ((), rest) => some (.real, rest)
    | none =>
      let n : Int := numberOf 10 ds
      (integerOf (if negative == some true then -n else n)).map fun value => (value, rest)

def based (base : Nat) (cs : List Char) : Option (Toml × List Char) := do
  let (ds, rest) ← digits base cs
  (integerOf (numberOf base ds)).map fun value => (value, rest)

/-- So many decimal digits and nothing between them. -/
def exactDigits (count : Nat) (cs : List Char) : Option (Nat × List Char) := do
  let ds ← (cs.take count).mapM (digit? 10)
  if ds.length = count then some (numberOf 10 ds, cs.drop count) else none

def mark (c : Char) : Reader Unit
  | d :: rest => if c = d then some ((), rest) else none
  | [] => none

def daysOf (year month : Nat) : Nat :=
  if month = 2 then
    if year % 4 = 0 ∧ (year % 100 ≠ 0 ∨ year % 400 = 0) then 29 else 28
  else if month = 4 ∨ month = 6 ∨ month = 9 ∨ month = 11 then 30
  else 31

def day (cs : List Char) : Option (List Char) := do
  let (year, cs) ← exactDigits 4 cs
  let (_, cs) ← mark '-' cs
  let (month, cs) ← exactDigits 2 cs
  let (_, cs) ← mark '-' cs
  let (date, cs) ← exactDigits 2 cs
  if 1 ≤ month ∧ month ≤ 12 ∧ 1 ≤ date ∧ date ≤ daysOf year month then some cs else none

/-- A time of the day, with a fraction of a second if need be. -/
def time (cs : List Char) : Option (List Char) := do
  let (hour, cs) ← exactDigits 2 cs
  let (_, cs) ← mark ':' cs
  let (minute, cs) ← exactDigits 2 cs
  let (_, cs) ← mark ':' cs
  let (second, cs) ← exactDigits 2 cs
  if hour ≤ 23 ∧ minute ≤ 59 ∧ second ≤ 60 then
    match cs with
    | '.' :: rest =>
      let places := rest.takeWhile Char.isDigit
      if places.isEmpty then none else some (rest.drop places.length)
    | cs => some cs
  else none

def offset : List Char → Option (List Char)
  | 'Z' :: rest | 'z' :: rest => some rest
  | c :: rest =>
    if c == '+' || c == '-' then do
      let (hour, rest) ← exactDigits 2 rest
      let (_, rest) ← mark ':' rest
      let (minute, rest) ← exactDigits 2 rest
      if hour ≤ 23 ∧ minute ≤ 59 then some rest else none
    else none
  | [] => none

def date (cs : List Char) : Option (Toml × List Char) :=
  match day cs with
  | some rest =>
    let timed := match rest with
      | 'T' :: rest | 't' :: rest | ' ' :: rest => time rest
      | _ => none
    match timed with
    | some rest => some (.moment, (offset rest).getD rest)
    | none => some (.moment, rest)
  | none => (time cs).map fun rest => (.moment, rest)

/-! ### Values -/

/-- What follows blanks, line ends and comments; `comment` when a comment has begun. -/
def skipLines (comment : Bool) : List Char → List Char
  | [] => []
  | '\r' :: '\n' :: rest => skipLines false rest
  | c :: rest =>
    if c = '\n' then skipLines false rest
    else if comment then if isText c then skipLines true rest else c :: rest
    else if c = '#' then skipLines true rest
    else if isBlank c then skipLines false rest
    else c :: rest

mutual
/-- A value; `fuel` bounds the values inside one another and in a row, and their characters. -/
def value : Nat → List Char → Option (Toml × List Char)
  | 0, _ => none
  | fuel + 1, cs =>
    match cs with
    | '"' :: _ | '\'' :: _ => (anyString fuel cs).map fun (s, rest) => (.string s, rest)
    | '[' :: rest => (arrayItems fuel rest).map fun (items, rest) => (.array items, rest)
    | '\x7b' :: rest =>
      match skipBlanks rest with
      | '\x7d' :: rest => some (.table .inline [], rest)
      | rest => (inlineEntries fuel rest []).map fun (entries, rest) => (.table .inline entries, rest)
    | 't' :: 'r' :: 'u' :: 'e' :: rest => some (.bool true, rest)
    | 'f' :: 'a' :: 'l' :: 's' :: 'e' :: rest => some (.bool false, rest)
    | '0' :: 'x' :: rest => based 16 rest
    | '0' :: 'o' :: rest => based 8 rest
    | '0' :: 'b' :: rest => based 2 rest
    | cs => (date cs).or (decimal cs)

def arrayItems : Nat → List Char → Option (List Toml × List Char)
  | 0, _ => none
  | fuel + 1, cs =>
    match skipLines false cs with
    | ']' :: rest => some ([], rest)
    | cs => do
      let (first, rest) ← value fuel cs
      match skipLines false rest with
      | ',' :: rest =>
        let (more, rest) ← arrayItems fuel rest
        some (first :: more, rest)
      | ']' :: rest => some ([first], rest)
      | _ => none

/-- The rest of a table in braces, of which an entry is due. -/
def inlineEntries : Nat → List Char → Entries → Option (Entries × List Char)
  | 0, _, _ => none
  | fuel + 1, cs, entries => do
    let (path, rest) ← dottedKey (fuel + 1) cs
    let (_, rest) ← mark '=' rest
    let (v, rest) ← value fuel (skipBlanks rest)
    let entries ← setDotted v path entries
    match skipBlanks rest with
    | ',' :: rest => inlineEntries fuel rest entries
    | '\x7d' :: rest => some (entries, rest)
    | _ => none
end

/-! ### Lines -/

/-- What stands on a line, if anything does; `fuel` bounds its characters. -/
def line (fuel : Nat) (cs : List Char) : Option (Option Line × List Char) :=
  match cs with
  | [] | '#' :: _ | '\n' :: _ | '\r' :: _ => some (none, cs)
  | '[' :: '[' :: rest => do
    let (path, rest) ← dottedKey fuel rest
    let (_, rest) ← mark ']' rest
    let (_, rest) ← mark ']' rest
    some (some (.listHeader path), rest)
  | '[' :: rest => do
    let (path, rest) ← dottedKey fuel rest
    let (_, rest) ← mark ']' rest
    some (some (.header path), rest)
  | cs => do
    let (path, rest) ← dottedKey fuel cs
    let (_, rest) ← mark '=' rest
    let (v, rest) ← value fuel (skipBlanks rest)
    some (some (.entry path v), rest)

/-- The lines up to the end; `done` are those before, last first, and `fuel` bounds the characters. -/
def lines : Nat → List Char → List Line → Option (List Line)
  | 0, _, _ => none
  | fuel + 1, cs, done => do
    let (found, rest) ← line (fuel + 1) (skipBlanks cs)
    let done := found.toList ++ done
    match skipComment (skipBlanks rest) with
    | [] => some done.reverse
    | rest =>
      let (_, rest) ← newline rest
      lines fuel rest done

/-- The document that a text consists of; a byte order mark in front is passed over. -/
def parse? (s : String) : Option Entries :=
  let cs := match s.toList with
    | '\uFEFF' :: rest => rest
    | cs => cs
  (lines (cs.length + 1) cs []).bind ofLines

end Toml
end Switchboard
