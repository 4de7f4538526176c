import Switchboard.Packet.Basic
import Switchboard.Fault

/-! What a packet carries: an encoded application value, or a fault. A fault's payload is its two-octet
    code and its message, and the packet's lowest flag tells the two apart. -/

namespace Switchboard

/-- Encodes and decodes application values of one type. -/
structure Codec (α : Type) where
  encode : α → Except Fault Bytes
  decode : Bytes → Except Fault α

/-- What is to be put into a packet: an application value, or a fault. -/
inductive Payload (α : Type) where
  | value (a : α)
  | fault (code : Code) (message : String)

/-- An application value in octets, or a fault. -/
inductive Content where
  | value (octets : Bytes)
  | fault (code : Code) (message : String)
  deriving DecidableEq

namespace Content

def encodeFault (code : Code) (message : String) : Bytes :=
  Bytes.bigEndian 2 code.toNat ++ Text.bytes message

/-- The fault that a payload reports; a payload that is none is a fault of its own. -/
def decodeFault (bs : Bytes) : Fault :=
  match Bytes.number 2 bs with
  | none => .errorTooShort bs.length
  | some (n, rest) =>
    match Code.ofNat? n with
    | none => .errorCodeUnknown n
    | some code =>
      match Text.ofBytes? rest with
      | some message => .stated code message none
      | none => .errorNotText

/-- What reports a failure to a peer: its code and its message, without its cause. -/
def ofFault (f : Fault) : Content := .fault f.code f.message

def octets : Content → Bytes
  | value octets => octets
  | fault code message => encodeFault code message

def isFault : Content → Bool
  | value _ => false
  | fault _ _ => true

/-- What whoever decodes content has: its octets, or the fault with its code and message. -/
def outcome : Content → Except Fault Bytes
  | value octets => .ok octets
  | fault code message => .error (.stated code message none)

@[simp] theorem decodeFault_encodeFault (code : Code) (message : String) :
    decodeFault (encodeFault code message) = .stated code message none := by
  have cut := Bytes.cut_append (Bytes.bigEndian 2 code.toNat) (Text.bytes message)
  rw [Bytes.length_bigEndian] at cut
  have number : Bytes.toNat (Bytes.bigEndian 2 code.toNat) = code.toNat := by cases code <;> rfl
  simp [decodeFault, encodeFault, Bytes.number, cut, number]

end Content

namespace Packet

/-- Puts content into the payload and marks it; all else stays. -/
def carry (p : Packet) (c : Content) : Packet :=
  { p.markFault c.isFault with payload := c.octets }

/-- The octets of the value in the payload, or the fault that is there instead. -/
def carried (p : Packet) : Except Fault Bytes :=
  if p.isFault then .error (Content.decodeFault p.payload) else .ok p.payload

theorem isFault_markFault (p : Packet) : (p.markFault true).isFault = true := by
  have marked : (p.flags ||| 1) &&& 1 = 1 := by
    rw [← UInt8.toBitVec_inj]
    ext i
    simp
    exact .inr
  simp [isFault, markFault, marked]

theorem isFault_unmarked (p : Packet) : (p.markFault false).isFault = false := by
  have unmarked : p.flags &&& 254 &&& 1 = 0 := by
    rw [← UInt8.toBitVec_inj]
    simp [BitVec.and_assoc]
  simp [isFault, markFault, unmarked]

@[simp] theorem carried_carry (p : Packet) (c : Content) : (p.carry c).carried = c.outcome := by
  cases c with
  | value octets =>
    have unmarked : (p.carry (.value octets)).isFault = false := isFault_unmarked p
    unfold carried
    rw [unmarked]
    rfl
  | fault code message =>
    have marked : (p.carry (.fault code message)).isFault = true := isFault_markFault p
    unfold carried
    rw [marked]
    exact congrArg Except.error (Content.decodeFault_encodeFault code message)

/-- Whoever decodes a packet that carries a failure finds its code and its description. -/
theorem carried_carry_fault (p : Packet) (f : Fault) :
    (p.carry (.ofFault f)).carried = .error (.stated f.code f.message none) := p.carried_carry (.ofFault f)

/-- Puts content that could be encoded into the payload; otherwise the packet stays as it is. -/
def load (p : Packet) : Except Fault Content → Packet × Except Fault Unit
  | .ok c => (p.carry c, .ok ())
  | .error fault => (p, .error fault)

variable {α : Type}

/-- Encodes a value into the payload; if that fails the packet stays as it is. -/
def loadValue (codec : Codec α) (p : Packet) (a : α) : Packet × Except Fault Unit :=
  p.load ((codec.encode a).map .value)

def loadFault (p : Packet) (code : Code) (message : String) : Packet := p.carry (.fault code message)

def loadPayload (codec : Codec α) (p : Packet) : Payload α → Packet × Except Fault Unit
  | .value a => p.loadValue codec a
  | .fault code message => (p.loadFault code message, .ok ())

/-- The value in the payload, or the fault that is there instead. -/
def value (codec : Codec α) (p : Packet) : Except Fault α := p.carried.bind codec.decode

end Packet
end Switchboard
