import Switchboard.Proofs.Wire.FrameOctets

/-! A packet is written just when its text key, its whole length and its metadata fit, and the first of these that
    does not decides the fault. What is written is as long as it says, and whoever reads it under the same framing
    has the packet, without the routing key that the layout does not carry. -/

namespace Switchboard
namespace Layout

variable {l : Layout} {limit : Nat} {p : Packet}

theorem borne_eq_self (uri : l = .uri → p.id = 0) (id : l = .id → p.uri = "") : l.borne p = p := by
  cases l with
  | uri => rw [borne, ← uri rfl]
  | id => rw [borne, ← id rfl]

theorem spareOctet_of_met (key : Demand.key.Met l limit p) : l = .uri → (l.spareOctet p).toNat = Text.size p.uri := by
  rintro rfl
  exact UInt8.toNat_ofNat_of_lt' (Nat.lt_succ_of_le (key rfl))

theorem payload_of_met (size : Demand.size.Met l limit p) : p.payload.length < Bytes.span 4 := by
  have total : l.frameLength p < Bytes.span 4 := Nat.lt_succ_of_le (Nat.le_trans size (Nat.min_le_right ..))
  unfold frameLength at total
  omega

/-- What is written is read again. -/
theorem decode_written (met : ∀ d, Demand.Met l limit p d) : l.decode limit (l.written p) = .ok (l.borne p) := by
  have decoded := decode_composed (spareOctet_of_met (met .key)) (payload_of_met (met .size)) (met .metadata)
    (length_written (l := l) (p := p)) (met .size)
  rw [Metadata.ofEntries_entries] at decoded
  rw [written, decoded]
  cases l <;> rfl

theorem length_stated (met : ∀ d, Demand.Met l limit p d) :
    Bytes.toNat ((l.written p).take prefixLength) = (l.written p).length :=
  holds_composed (spareOctet_of_met (met .key)) (payload_of_met (met .size)) (met .metadata)
    (length_written (l := l) (p := p)) (met .size) .length

end Layout

namespace Parcel

open Layout (Demand)

variable {f : Framing} {p : Parcel} {frame : Bytes} {fault : Fault}

/-- A frame that is written into scratch space is the one that is written anew. -/
theorem frame_eq_encode (f : Framing) (p : Parcel) : (p.frame f).2 = f.encode p.toPacket := by
  unfold frame Framing.encode Layout.encode
  rcases f.layout.measure f.limit p.toPacket with fault | ⟨total, spare⟩
  · rfl
  · simp only [bind, Except.bind, Piece.all_eq]
    rcases Piece.write (f.layout.framePieces p.toPacket total spare) with ⟨octets, fault | _⟩ <;> rfl

theorem met_of_frame (h : (p.frame f).2 = .ok frame) :
    (∀ d, Demand.Met f.layout f.limit p.toPacket d) ∧ frame = f.disguise (f.layout.written p.toPacket) := by
  rcases frame_cases f p with ⟨met, framed⟩ | ⟨d, fault, -, refused, -⟩
  · rw [h] at framed
    exact ⟨met, Except.ok.inj framed⟩
  · rw [h] at refused
    cases refused

theorem decode_of_frame (h : (p.frame f).2 = .ok frame) : f.decode frame = .ok (f.layout.borne p.toPacket) := by
  obtain ⟨met, rfl⟩ := met_of_frame h
  rw [Framing.decode, Framing.disguise_disguise, Layout.decode_written met]

/-- Whoever reads a frame of a packet has the packet, whatever was in the parcel that it is read into. -/
theorem unframe_of_frame (h : (p.frame f).2 = .ok frame) (q : Parcel) :
    q.unframe f frame = ({ toPacket := f.layout.borne p.toPacket, scratch := q.scratch }, .ok ()) := by
  rw [unframe, decode_of_frame h]

/-- A frame is as long as it says, and says so under any mask. -/
theorem length_of_frame (h : (p.frame f).2 = .ok frame) :
    frame.length = f.layout.frameLength p.toPacket ∧ Bytes.toNat (frame.take Layout.prefixLength) = frame.length := by
  obtain ⟨met, rfl⟩ := met_of_frame h
  rw [Framing.length_disguise, Framing.take_disguise]
  exact ⟨Layout.length_written, Layout.length_stated met⟩

/-- A packet is written just when it meets every demand, and the first that it does not meet decides the code of the
    fault. A frame has the length of its parts, states it in its first four octets, which no mask covers, and gives
    the packet to whoever reads it into any parcel, but for the routing key that the layout does not carry. -/
theorem frames_bear_their_packets (f : Framing) (p : Parcel) :
    ((∃ frame, (p.frame f).2 = .ok frame) ↔ ∀ d, Demand.Met f.layout f.limit p.toPacket d) ∧
    (∀ fault, (p.frame f).2 = .error fault →
      ∃ d, FirstBroken (Demand.Met f.layout f.limit p.toPacket) Demand.all d ∧ fault.code = d.code) ∧
    (∀ frame, (p.frame f).2 = .ok frame →
      frame.length = f.layout.frameLength p.toPacket ∧ Bytes.toNat (frame.take 4) = frame.length ∧
      ∀ q : Parcel, q.unframe f frame = ({ toPacket := f.layout.borne p.toPacket, scratch := q.scratch }, .ok ())) ∧
    ((f.layout = .uri → p.id = 0) → (f.layout = .id → p.uri = "") → f.layout.borne p.toPacket = p.toPacket) := by
  refine ⟨⟨fun ⟨_, h⟩ => (met_of_frame h).1, fun met => ⟨_, frame_of_met met⟩⟩, fun fault h => ?_, fun frame h => ?_,
    Layout.borne_eq_self⟩
  · rcases frame_cases f p with ⟨-, framed⟩ | ⟨d, fault', broken, refused, code⟩
    · rw [h] at framed
      cases framed
    · rw [h] at refused
      cases refused
      exact ⟨d, broken, code⟩
  · obtain ⟨length, stated⟩ := length_of_frame h
    exact ⟨length, stated, unframe_of_frame h⟩

end Parcel

theorem Framing.decode_encode {f : Framing} {q : Packet} {frame : Bytes} (encoded : f.encode q = .ok frame) :
    f.decode frame = .ok (f.layout.borne q) := by
  have framed : (({ toPacket := q } : Parcel).frame f).2 = .ok frame := by rw [Parcel.frame_eq_encode, encoded]
  exact Parcel.decode_of_frame framed

end Switchboard
