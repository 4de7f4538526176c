import Switchboard.Bytes

/-! Text as UTF-8 octets. `bytes` and `ofBytes?` undo each other, and `lossy` reads any octets at all,
    with one replacement character for each longest beginning of a character that breaks off. -/

namespace Switchboard
namespace Text

def bytes (s : String) : Bytes := s.toByteArray.data.toList

/-- The text with these UTF-8 octets, if they are well formed. -/
def ofBytes? (bs : Bytes) : Option String := String.fromUTF8? bs.toByteArray

def size (s : String) : Nat := s.utf8ByteSize

/-- One key comes before another when its octets do. -/
def before (s t : String) : Bool := bytes s < bytes t

theorem toByteArray_bytes (s : String) : (bytes s).toByteArray = s.toByteArray := by
  apply ByteArray.ext
  simp [bytes, List.data_toByteArray]

@[simp] theorem ofBytes?_bytes (s : String) : ofBytes? (bytes s) = some s := by
  rw [ofBytes?, toByteArray_bytes, String.fromUTF8?, dif_pos s.isValidUTF8]
  rfl

theorem bytes_of_ofBytes? {bs : Bytes} {s : String} (h : ofBytes? bs = some s) : bytes s = bs := by
  rw [ofBytes?, String.fromUTF8?] at h
  split at h
  · cases h
    simp [bytes, String.fromUTF8, List.data_toByteArray]
  · cases h

theorem ofBytes?_eq_some_iff {bs : Bytes} {s : String} : ofBytes? bs = some s ↔ bs = bytes s :=
  ⟨fun h => (bytes_of_ofBytes? h).symm, fun h => h ▸ ofBytes?_bytes s⟩

theorem bytes_injective {s t : String} (h : bytes s = bytes t) : s = t := by
  have := ofBytes?_bytes s
  rw [h, ofBytes?_bytes] at this
  exact (Option.some.inj this).symm

@[simp] theorem length_bytes (s : String) : (bytes s).length = size s := rfl

/-! ### Reading what is not well formed -/

/-- A character that has begun: the value so far, how many octets are missing, and the bounds of the
    next one. -/
structure Partial where
  value : Nat
  missing : Nat
  low : Nat := 0x80
  high : Nat := 0xBF

/-- What a first octet says: a whole character, the beginning of a longer one, or neither. -/
def lead (b : Nat) : Char ⊕ Partial ⊕ Unit :=
  if b < 0x80 then .inl (Char.ofNat b)
  else if 0xC2 ≤ b ∧ b ≤ 0xDF then .inr (.inl { value := b - 0xC0, missing := 1 })
  else if b = 0xE0 then .inr (.inl { value := 0, missing := 2, low := 0xA0 })
  else if b = 0xED then .inr (.inl { value := 0xD, missing := 2, high := 0x9F })
  else if 0xE1 ≤ b ∧ b ≤ 0xEF then .inr (.inl { value := b - 0xE0, missing := 2 })
  else if b = 0xF0 then .inr (.inl { value := 0, missing := 3, low := 0x90 })
  else if 0xF1 ≤ b ∧ b ≤ 0xF3 then .inr (.inl { value := b - 0xF0, missing := 3 })
  else if b = 0xF4 then .inr (.inl { value := 4, missing := 3, high := 0x8F })
  else .inr (.inr ())

def replacement : Char := '\uFFFD'

/-- The reader's state: the characters read so far, last first, and the one that has begun. -/
structure Lossy where
  read : List Char := []
  begun : Option Partial := none

/-- Reads an octet that begins a character. -/
def Lossy.fresh (s : Lossy) (b : Nat) : Lossy :=
  match lead b with
  | .inl c => { read := c :: s.read }
  | .inr (.inl p) => { read := s.read, begun := some p }
  | .inr (.inr ()) => { read := replacement :: s.read }

/-- Reads one octet: it continues the character that has begun, or breaks it off and begins anew. -/
def Lossy.octet (s : Lossy) (b : UInt8) : Lossy :=
  match s.begun with
  | none => s.fresh b.toNat
  | some p =>
    if p.low ≤ b.toNat ∧ b.toNat ≤ p.high then
      let value := p.value * 64 + (b.toNat - 0x80)
      if p.missing ≤ 1 then { read := Char.ofNat value :: s.read }
      else { read := s.read, begun := some { value, missing := p.missing - 1 } }
    else { read := replacement :: s.read : Lossy }.fresh b.toNat

/-- The characters read when the octets end. -/
def Lossy.finish (s : Lossy) : List Char :=
  (if s.begun.isSome then replacement :: s.read else s.read).reverse

/-- Reads octets as text, well formed or not. -/
def lossy (bs : Bytes) : String :=
  match ofBytes? bs with
  | some s => s
  | none => String.ofList (bs.foldl Lossy.octet {}).finish

@[simp] theorem lossy_bytes (s : String) : lossy (bytes s) = s := by simp [lossy]

end Text
end Switchboard
