import Switchboard.Proofs.Wire.MetadataOctets

/-! A map is written just when each of its sizes fits in two octets. It is as long in writing as its size was worked
    out to be, its keys ascend there, nothing is done to what it is written after, and whoever reads it has the map. -/

namespace Switchboard
namespace Metadata

variable {m : Metadata} {bs : Bytes} {fault : Fault}

theorem encode_of_fits (fits : Fits m.entries) : m.encode = .ok (octets m.entries) := by
  rw [encode, Piece.all_eq, write_pieces fits]
  rfl

theorem encode_of_not_fits (fits : ¬Fits m.entries) :
    ∃ field n, m.encode = .error (.metadataTooLong field n) := by
  obtain ⟨field, n, stop⟩ := write_pieces_too_long fits
  exact ⟨field, n, by rw [encode, Piece.all_eq, stop]; rfl⟩

theorem encode_eq_ok_iff : m.encode = .ok bs ↔ Spells m.entries bs := by
  constructor
  · intro written
    by_cases fits : Fits m.entries
    · rw [encode_of_fits fits] at written
      exact ⟨fits, (Except.ok.inj written).symm⟩
    · obtain ⟨field, n, stop⟩ := encode_of_not_fits fits
      cases stop.symm.trans written
  · rintro ⟨fits, rfl⟩
    exact encode_of_fits fits

/-- What a map is written after stays as it is, and makes no difference. -/
theorem encodeOnto_eq (m : Metadata) (out : Bytes) :
    m.encodeOnto out = (out ++ (Piece.write m.pieces).1, m.encode.map fun _ => ()) := by
  rw [encodeOnto, Piece.write_ok, encode, Piece.all_eq]
  rcases Piece.write m.pieces with ⟨written, fault | _⟩ <;> rfl

theorem encodeOnto_of_encode (written : m.encode = .ok bs) (out : Bytes) : m.encodeOnto out = (out ++ bs, .ok ()) := by
  obtain ⟨fits, rfl⟩ := encode_eq_ok_iff.mp written
  rw [encodeOnto_eq, written, write_pieces fits]
  rfl

theorem decode_of_encode (written : m.encode = .ok bs) : decode bs = .ok m :=
  decode_eq_ok_iff.mpr ⟨m.entries, encode_eq_ok_iff.mp written, (ofEntries_entries m).symm⟩

/-- A map is written just when the length of each key, the number of its values and the length of each value fit, and
    the fault is about a size otherwise. What is written has the length worked out beforehand, spells the entries of
    the map in the ascending order of their keys, is what is appended to any octets, and is read as the map. -/
theorem maps_are_written_and_read (m : Metadata) :
    ((∃ bs, m.encode = .ok bs) ↔ Fits m.entries) ∧
    (∀ fault, m.encode = .error fault → fault.code = .metadataSize) ∧
    (∀ out, (m.encodeOnto out).2 = m.encode.map fun _ => ()) ∧
    ∀ bs, m.encode = .ok bs →
      bs.length = m.encodedSize ∧ (Spells m.entries bs ∧ ∀ entries, Spells entries bs → Ascending entries) ∧
      (∀ out, m.encodeOnto out = (out ++ bs, .ok ())) ∧ decode bs = .ok m := by
  refine ⟨⟨?_, fun fits => ⟨_, encode_of_fits fits⟩⟩, fun fault refused => ?_, fun out => ?_, fun bs written => ?_⟩
  · rintro ⟨bs, written⟩
    exact (encode_eq_ok_iff.mp written).fits
  · by_cases fits : Fits m.entries
    · cases (encode_of_fits fits).symm.trans refused
    · obtain ⟨field, n, stop⟩ := encode_of_not_fits fits
      cases stop.symm.trans refused
      rfl
  · rw [encodeOnto_eq]
  · have spells := encode_eq_ok_iff.mp written
    refine ⟨?_, ⟨spells, fun entries other => ?_⟩, encodeOnto_of_encode written, decode_of_encode written⟩
    · rw [spells.octets_eq, length_octets]
    · rw [other.unique spells]
      exact m.ascending

end Metadata
end Switchboard
