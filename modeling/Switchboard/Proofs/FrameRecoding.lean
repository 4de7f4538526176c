import Switchboard.Proofs.FrameRoundTrip

/-! Frames that are read and written again. Whatever is read can be written, as each size that a frame states is one
    that a frame can state, and no longer than before. Written again it is the same packet, and the same octets just
    when the frame was regular: a frame may list its metadata keys in any order and repeatedly, and a numeric one may
    have anything in its spare octet, but none is written so. -/

namespace Switchboard
namespace Layout

variable {l : Layout} {limit : Nat} {frame : Bytes} {p : Packet}

/-- The metadata keys of a frame ascend, and the spare octet that means nothing is 0. -/
def Regular (l : Layout) (frame : Bytes) : Prop :=
  (∃ entries, Metadata.Spells entries (l.metadataPart frame) ∧ Ascending entries) ∧ (l = .id → octet frame 7 = 0)

/-! ### What is read can be written -/

theorem Carries.size_uri (holds : ∀ c, Clause.Holds .uri limit frame c) (carries : Carries .uri frame p) :
    Text.size p.uri = (octet frame 7).toNat := by
  have extent : headerLength .uri + (octet frame 7).toNat + payloadSize frame ≤ frame.length := holds .extent
  rw [← Text.length_bytes, (carries.uri rfl).1, keyPart, length_take_drop]
  · rfl
  · exact Nat.le_trans (Nat.le_add_right ..) extent

/-- The octets of a frame, part by part. -/
theorem Carries.length_eq (holds : ∀ c, Clause.Holds l limit frame c) (carries : l.Carries frame p) :
    l.headerLength + l.keyLength p + p.payload.length + (l.metadataPart frame).length = frame.length := by
  have whole := congrArg List.length (carries.compose holds)
  rw [List.length_append, length_body] at whole
  exact whole.symm

theorem Carries.frameLength_le (holds : ∀ c, Clause.Holds l limit frame c) (carries : l.Carries frame p) :
    l.frameLength p ≤ frame.length := by
  obtain ⟨entries, ⟨-, octets⟩, metadata⟩ := carries.metadata
  have shrinks := Metadata.encodedSize_ofEntries entries
  rw [← metadata, ← octets] at shrinks
  rw [← carries.length_eq holds]
  exact Nat.add_le_add_left shrinks _

theorem Carries.met (holds : ∀ c, Clause.Holds l limit frame c) (carries : l.Carries frame p) :
    ∀ d, Demand.Met l limit p d
  | .key => by
    rintro rfl
    rw [carries.size_uri holds]
    exact Nat.le_of_lt_succ (octet frame 7).toNat_lt
  | .size => Nat.le_trans (carries.frameLength_le holds) (holds .bound)
  | .metadata => by
    obtain ⟨entries, ⟨fits, -⟩, metadata⟩ := carries.metadata
    rw [Demand.Met, metadata]
    exact fits.ofEntries

theorem Carries.borne_eq (carries : l.Carries frame p) : l.borne p = p :=
  borne_eq_self (fun uri => (carries.uri uri).2) (fun id => (carries.id id).2)

/-! ### The octets that are written -/

theorem regular_written (met : ∀ d, Demand.Met l limit p d) : l.Regular (l.written p) := by
  refine ⟨⟨p.metadata.entries, ⟨met .metadata, ?_⟩, p.metadata.ascending⟩, ?_⟩
  · exact metadataPart_composed _ _ (spareOctet_of_met (met .key)) (payload_of_met (met .size))
  · rintro rfl
    rfl

theorem Carries.spareOctet_eq (holds : ∀ c, Clause.Holds l limit frame c) (carries : l.Carries frame p)
    (pad : l = .id → octet frame 7 = 0) : l.spareOctet p = octet frame 7 := by
  cases l with
  | uri => rw [spareOctet, carries.size_uri holds, UInt8.ofNat_toNat]
  | id => exact (pad rfl).symm

theorem Carries.written_eq (holds : ∀ c, Clause.Holds l limit frame c) (carries : l.Carries frame p)
    (regular : l.Regular frame) : l.written p = frame := by
  obtain ⟨⟨entries, spells, ascending⟩, pad⟩ := regular
  obtain ⟨found, spells', metadata⟩ := carries.metadata
  -- A frame fixes its entries but for their order, so those that ascend are written as they were.
  have same : Metadata.octets p.metadata.entries = l.metadataPart frame := by
    rw [metadata, spells'.unique spells, Metadata.ofEntries_entries_iff.mpr ascending, spells.octets_eq]
  have length : l.frameLength p = frame.length := by
    rw [← carries.length_eq holds, ← same, Metadata.length_octets]
    rfl
  rw [written, same, length, carries.spareOctet_eq holds pad, ← carries.compose holds]

/-- A frame is written as it was just when it was regular. -/
theorem Carries.written_eq_iff (holds : ∀ c, Clause.Holds l limit frame c) (carries : l.Carries frame p) :
    l.written p = frame ↔ l.Regular frame :=
  ⟨fun same => same ▸ regular_written (carries.met holds), carries.written_eq holds⟩

end Layout

namespace Parcel

open Layout (Regular)

variable {f : Framing} {p q : Parcel} {frame : Bytes}

theorem decode_of_unframe (taken : p.unframe f frame = (q, .ok ())) :
    f.layout.decode f.limit (f.disguise frame) = .ok q.toPacket := by
  unfold unframe Framing.decode at taken
  split at taken
  · rename_i decoded
    cases taken
    exact decoded
  · cases taken

/-- A packet that was read can be written under the same framing, in no more octets than it was read from; these are
    read as the packet again, and they are the ones that it was read from just when those were regular. -/
theorem taken_frames_are_written_again (taken : p.unframe f frame = (q, .ok ())) :
    ∃ again, (q.frame f).2 = .ok again ∧ again.length ≤ frame.length ∧
      (∀ r : Parcel, r.unframe f again = ({ toPacket := q.toPacket, scratch := r.scratch }, .ok ())) ∧
      (again = frame ↔ f.layout.Regular (f.disguise frame)) := by
  obtain ⟨holds, carries⟩ := Layout.decode_eq_ok_iff.mp (decode_of_unframe taken)
  have framed := frame_of_met (carries.met holds)
  refine ⟨_, framed, ?_, fun r => ?_, ?_⟩
  · rw [Framing.length_disguise, Layout.length_written]
    exact Nat.le_trans (carries.frameLength_le holds) (Nat.le_of_eq (Framing.length_disguise f frame))
  · rw [unframe_of_frame framed, carries.borne_eq]
  · rw [← carries.written_eq_iff holds]
    constructor
    · rintro rfl
      exact (Framing.disguise_disguise ..).symm
    · intro same
      rw [same, Framing.disguise_disguise]

/-- Numeric frames under a mask. -/
def veiled : Framing := { layout := .id, limit := 64, mask := .xor [0x5A, 0x01] (by decide) }

/-- A frame that uses its spare octet, and files `b`, then `a`, then `b` again. -/
def loose : Bytes := veiled.disguise
  [0, 0, 0, 50, 1, 0x80, 3, 7, 0, 0, 0, 0, 0, 0, 0, 9, 0, 0, 0, 2, 0, 0, 1, 2, 0xAB, 0xCD,
    0, 1, 0, 1, 98, 0, 1, 120, 0, 1, 0, 0, 97, 0, 1, 0, 2, 98, 0, 1, 121, 0, 1, 122]

/-- The same packet as it is written. -/
def terse : Bytes := veiled.disguise
  [0, 0, 0, 42, 1, 0x80, 3, 0, 0, 0, 0, 0, 0, 0, 0, 9, 0, 0, 0, 2, 0, 0, 1, 2, 0xAB, 0xCD,
    0, 1, 0, 0, 97, 0, 1, 0, 2, 98, 0, 1, 121, 0, 1, 122]

theorem loose_frame_is_written_again :
    ∃ q : Parcel, Parcel.unframe {} veiled loose = (q, .ok ()) ∧ (q.frame veiled).2 = .ok terse ∧
      terse.length ≤ loose.length ∧
      (∀ r : Parcel, r.unframe veiled terse = ({ toPacket := q.toPacket, scratch := r.scratch }, .ok ())) ∧
      ¬ Layout.Regular .id (veiled.disguise loose) := by
  have taken : Parcel.unframe {} veiled loose = ((Parcel.unframe {} veiled loose).1, .ok ()) :=
    Prod.ext rfl (eq_ok_of_toOption (by decide +kernel))
  have written : ((Parcel.unframe {} veiled loose).1.frame veiled).2 = .ok terse :=
    eq_ok_of_toOption (by decide +kernel)
  have differs : terse ≠ loose := by decide
  obtain ⟨again, framed, shorter, read, same⟩ := taken_frames_are_written_again taken
  rw [written] at framed
  cases framed
  exact ⟨_, taken, written, shorter, read, mt same.mpr differs⟩

end Parcel
end Switchboard
