import Switchboard.Packet.Basic
import Switchboard.Metadata.Codec

/-! A packet in octets. Both layouts begin with the total length in four octets, then the command, the
    flags, the reserved octet, one octet more, the session in eight and the payload's length in four.
    In the text layout that one octet is the length of the text key, and the key follows; in the
    numeric layout it is 0, and four octets of the numeric key follow. The payload comes next, and the
    metadata is the rest. -/

namespace Switchboard

/-- Which routing key a frame carries. -/
inductive Layout where
  | uri
  | id
  deriving DecidableEq, Repr, Inhabited

namespace Layout

/-- The number of octets of the length that begins a frame. -/
def prefixLength : Nat := 4

/-- The number of octets before the parts of variable length. -/
def headerLength : Layout → Nat
  | uri => 20
  | id => 24

def largest : Nat := 0xFFFFFFFF

/-- The largest packet unless something else is agreed. -/
def defaultLimit : Nat := 16 * 1024 * 1024

/-! ### Writing -/

/-- The length of the text key in one octet, if it fits. -/
def uriLength (p : Packet) : Except Fault UInt8 :=
  let n := Text.size p.uri
  if n < 256 then .ok (UInt8.ofNat n) else .error (.uriTooLong p.uri)

/-- The octet between the reserved octet and the session. -/
def spare (l : Layout) (p : Packet) : Except Fault UInt8 :=
  match l with
  | uri => uriLength p
  | id => .ok 0

/-- The number of octets of the routing key that the layout carries, as far as it varies. -/
def keyLength (l : Layout) (p : Packet) : Nat :=
  match l with
  | uri => Text.size p.uri
  | id => 0

def frameLength (l : Layout) (p : Packet) : Nat :=
  l.headerLength + l.keyLength p + p.payload.length + p.metadata.encodedSize

def keyOctets (l : Layout) (p : Packet) : Bytes :=
  match l with
  | uri => Text.bytes p.uri
  | id => Bytes.bigEndian 4 p.id.toNat

def body (l : Layout) (p : Packet) (total : Nat) (spare : UInt8) : Bytes :=
  Bytes.bigEndian 4 total ++ [p.command.toUInt8, p.flags, p.reserved, spare] ++
    Bytes.bigEndian 8 p.session.toNat ++ Bytes.bigEndian 4 p.payload.length ++ l.keyOctets p ++ p.payload

/-- The length of a frame that may be written: the text key fits, and so does the whole. -/
def measure (l : Layout) (limit : Nat) (p : Packet) : Except Fault (Nat × UInt8) := do
  let spare ← l.spare p
  let total := l.frameLength p
  if min limit largest < total then .error (.packetTooLarge total (min limit largest))
  return (total, spare)

/-- The frame of a packet in pieces: what comes before the metadata, and the metadata. -/
def framePieces (l : Layout) (p : Packet) (total : Nat) (spare : UInt8) : List Piece :=
  .ok (l.body p total spare) :: p.metadata.pieces

def encode (l : Layout) (limit : Nat) (p : Packet) : Except Fault Bytes := do
  let (total, spare) ← l.measure limit p
  Piece.all (l.framePieces p total spare)

/-! ### Reading -/

structure Header where
  command : Command
  flags : UInt8
  reserved : UInt8
  spare : UInt8
  session : UInt64
  payloadLength : Nat
  id : UInt32

def octet (frame : Bytes) (i : Nat) : UInt8 := frame.getD i 0

/-- The number in the octets of a frame from `i` to `i + width`. -/
def field (frame : Bytes) (i width : Nat) : Nat := Bytes.toNat ((frame.drop i).take width)

/-- The length of a frame is at least the header's, within the limit, and what the frame states. -/
def checkLength (l : Layout) (limit : Nat) (frame : Bytes) : Except Fault Unit := do
  let n := frame.length
  if n < l.headerLength then .error (.frameTooShort n l.headerLength)
  if min limit largest < n then .error (.packetTooLarge n (min limit largest))
  if field frame 0 4 ≠ n then .error (.sizeMismatch (field frame 0 4) n)

def readHeader (l : Layout) (frame : Bytes) : Except Fault Header :=
  match Command.ofUInt8? (octet frame 4) with
  | none => .error (.unknownCommand (octet frame 4).toNat)
  | some command =>
    .ok { command, flags := octet frame 5, reserved := octet frame 6, spare := octet frame 7
          session := UInt64.ofNat (field frame 8 8), payloadLength := field frame 16 4
          id := match l with
            | uri => 0
            | id => UInt32.ofNat (field frame 20 4) }

def readUri (bs : Bytes) : Except Fault String :=
  match Text.ofBytes? bs with
  | some s => .ok s
  | none => .error .uriNotText

def decode (l : Layout) (limit : Nat) (frame : Bytes) : Except Fault Packet := do
  l.checkLength limit frame
  let header ← l.readHeader frame
  let keyLength := match l with
    | uri => header.spare.toNat
    | id => 0
  let keyEnd := l.headerLength + keyLength
  let payloadEnd := keyEnd + header.payloadLength
  if frame.length < payloadEnd then .error (.payloadOverrun header.payloadLength frame.length)
  let uri ← match l with
    | uri => readUri ((frame.drop l.headerLength).take keyLength)
    | id => .ok ""
  let metadata ← Metadata.decode (frame.drop payloadEnd)
  return { command := header.command, flags := header.flags, reserved := header.reserved
           session := header.session, uri, id := header.id
           payload := (frame.drop keyEnd).take header.payloadLength, metadata }

end Layout
end Switchboard
