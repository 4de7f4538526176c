import Switchboard.Frame.Layout
import Switchboard.Frame.Mask
import Switchboard.Packet.Pool

/-! How two ends of a connection agree to write packets: a layout, the largest packet, and a mask over
    everything after the length. A frame is written into the scratch space of its packet. -/

namespace Switchboard

/-- The agreement of two ends on how frames are written. -/
structure Framing where
  layout : Layout := .uri
  limit : Nat := Layout.defaultLimit
  mask : Mask := .none
  deriving DecidableEq, Inhabited

namespace Framing

/-- Masks a frame, or unmasks a masked one; its length stays readable. -/
def disguise (f : Framing) (frame : Bytes) : Bytes :=
  frame.take Layout.prefixLength ++ f.mask.apply (frame.drop Layout.prefixLength)

def encode (f : Framing) (p : Packet) : Except Fault Bytes :=
  (f.layout.encode f.limit p).map f.disguise

def decode (f : Framing) (frame : Bytes) : Except Fault Packet :=
  f.layout.decode f.limit (f.disguise frame)

/-! ### Masks and lengths -/

variable (f : Framing) (frame : Bytes)

@[simp] theorem length_disguise : (f.disguise frame).length = frame.length := by
  rw [disguise, List.length_append, Mask.length_apply, ← List.length_append, List.take_append_drop]

theorem take_disguise : (f.disguise frame).take Layout.prefixLength = frame.take Layout.prefixLength := by
  have hrest : (f.mask.apply (frame.drop Layout.prefixLength)).take
      (Layout.prefixLength - (frame.take Layout.prefixLength).length) = [] := by
    rw [← List.length_eq_zero_iff, List.length_take, Mask.length_apply, List.length_drop, List.length_take]
    omega
  rw [disguise, List.take_append, hrest, List.append_nil, List.take_take, Nat.min_self]

theorem drop_disguise :
    (f.disguise frame).drop Layout.prefixLength = f.mask.apply (frame.drop Layout.prefixLength) := by
  have hall : (frame.take Layout.prefixLength ++ f.mask.apply (frame.drop Layout.prefixLength)) = f.disguise frame := rfl
  rw [← f.take_disguise frame] at hall
  exact List.append_cancel_left (hall.trans (List.take_append_drop ..).symm).symm

@[simp] theorem disguise_disguise : f.disguise (f.disguise frame) = frame := by
  calc f.disguise (f.disguise frame)
      = (f.disguise frame).take Layout.prefixLength ++
          f.mask.apply ((f.disguise frame).drop Layout.prefixLength) := rfl
    _ = frame := by rw [take_disguise, drop_disguise, Mask.apply_apply, List.take_append_drop]

end Framing

namespace Parcel

/-- Writes the frame of a packet into its scratch space; what was there before is lost even when the
    metadata cannot be written, and stays when the frame cannot be begun. -/
def frame (p : Parcel) (f : Framing) : Parcel × Except Fault Bytes :=
  match f.layout.measure f.limit p.toPacket with
  | .error fault => (p, .error fault)
  | .ok (total, spare) =>
    let scratch := p.scratch.reserve total
    match Piece.write (f.layout.framePieces p.toPacket total spare) with
    | (written, .error fault) => ({ p with scratch := { scratch with octets := written } }, .error fault)
    | (written, .ok ()) =>
      let octets := f.disguise written
      ({ p with scratch := { scratch with octets } }, .ok octets)

/-- Reads a frame into the packet, which stays as it is when the frame is malformed. -/
def unframe (p : Parcel) (f : Framing) (frame : Bytes) : Parcel × Except Fault Unit :=
  match f.decode frame with
  | .ok q => ({ toPacket := q, scratch := p.scratch }, .ok ())
  | .error fault => (p, .error fault)

end Parcel
end Switchboard
