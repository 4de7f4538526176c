import Switchboard.Proofs.MetadataGrammar

/-! A map in writing that is cut off. Ended between two entries it is the map of the keys before the cut in writing. Cut
    anywhere else it is found to be too short, whatever the cut goes through: a flaw other than that would be one of the
    whole as well (`FirstFlaw.append`), and the whole is read. -/

namespace Switchboard
namespace Metadata

/-- The map of the first `k` keys, in the order of their octets. -/
def upTo (m : Metadata) (k : Nat) : Metadata :=
  ⟨m.entries.take k, m.ascending.sublist (List.take_sublist k m.entries)⟩

/-- So many octets of a map in writing end where its first `k` entries end. -/
structure Boundary (m : Metadata) (k n : Nat) : Prop where
  within : k ≤ m.size
  ends : n = (m.upTo k).encodedSize

/-- What comes of reading some of the octets of a map, from the first on. -/
structure Curtailed (m : Metadata) (part : Bytes) : Prop where
  read_iff : (∃ m', decode part = .ok m') ↔ ∃ k, m.Boundary k part.length
  unique : ∀ {k k' : Nat}, m.Boundary k part.length → m.Boundary k' part.length → k = k'
  read : ∀ k, m.Boundary k part.length →
    decode part = .ok (m.upTo k) ∧ ∀ target : Metadata, target.decodeInto part = (m.upTo k, .ok ())
  refused : (∀ k, ¬m.Boundary k part.length) →
    decode part = .error .metadataTruncated ∧
      ∀ target : Metadata, target.decodeInto part = (target, .error .metadataTruncated)

variable {m m' : Metadata} {bs part more : Bytes} {fault : Fault} {k : Nat} {entries found : List MetadataEntry}

theorem Fits.upTo (fits : Fits m.entries) (k : Nat) : Fits (m.upTo k).entries :=
  fun e mem => fits e (List.mem_of_mem_take mem)

/-! ### Octets that go on -/

/-- Octets that are no text are none either when more follow. -/
theorem FirstFlaw.append (flaw : FirstFlaw part .illegible) (more : Bytes) : FirstFlaw (part ++ more) .illegible := by
  obtain ⟨entries, front, need, rest, fits, within, begun, rfl, flawed⟩ := flaw
  have later : need.Flawed (rest ++ more) .illegible := by
    cases flawed with
    | illegible length noText =>
      rw [List.append_assoc]
      exact .illegible length noText
  refine ⟨entries, front, need, rest ++ more, fits, within, fun empty => begun ?_, by simp, later⟩
  rw [← List.append_assoc] at empty
  exact (List.append_eq_nil_iff.mp empty).1

/-- Octets that can be read have no beginning that has another flaw than to be short. -/
theorem truncated_of_decode (read : decode (part ++ more) = .ok m) (stopped : decode part = .error fault) :
    fault = .metadataTruncated := by
  obtain ⟨flaw, first, rfl⟩ := decode_eq_error_iff.mp stopped
  cases flaw with
  | short => rfl
  | illegible =>
    have whole := decode_eq_error_iff.mpr ⟨.illegible, first.append more, rfl⟩
    cases read.symm.trans whole

/-- Entries at the beginning of the octets of others are the first of these. -/
theorem prefix_of_octets (fits : Fits entries) (foundFits : Fits found)
    (whole : octets entries = octets found ++ more) : found <+: entries := by
  induction found generalizing entries with
  | nil => exact List.nil_prefix
  | cons e found ih =>
    obtain ⟨efits, others⟩ := List.forall_mem_cons.mp foundFits
    rw [octets_cons, List.append_assoc] at whole
    have read := readEntry_eq_ok_iff.mpr ⟨efits, whole⟩
    cases entries with
    | nil => exact absurd (List.append_eq_nil_iff.mp whole.symm).1 (entryOctets_ne_nil e)
    | cons e' entries =>
      obtain ⟨efits', fits⟩ := List.forall_mem_cons.mp fits
      have first : readEntry (octets (e' :: entries)) = .ok (e', octets entries) :=
        readEntry_eq_ok_iff.mpr ⟨efits', rfl⟩
      obtain ⟨rfl, rest⟩ := Prod.mk.inj (Except.ok.inj (first.symm.trans read))
      exact (List.prefix_cons_inj e').mpr (ih fits others rest)

/-! ### Where a map may end -/

theorem Boundary.spells (written : m.encode = .ok (part ++ more)) (boundary : m.Boundary k part.length) :
    Spells (m.upTo k).entries part := by
  obtain ⟨fits, whole⟩ := encode_eq_ok_iff.mp written
  have split : octets m.entries = octets (m.upTo k).entries ++ octets (m.entries.drop k) := by
    rw [octets, octets, octets, ← List.flatMap_append, upTo, List.take_append_drop]
  have length : part.length = (octets (m.upTo k).entries).length := by rw [length_octets, boundary.ends]
  exact ⟨fits.upTo k, (List.append_inj (whole.trans split) length).1⟩

theorem Boundary.decode (written : m.encode = .ok (part ++ more)) (boundary : m.Boundary k part.length) :
    decode part = .ok (m.upTo k) :=
  decode_eq_ok_iff.mpr ⟨_, boundary.spells written, (ofEntries_entries _).symm⟩

theorem boundary_of_decode (written : m.encode = .ok (part ++ more)) (read : Metadata.decode part = .ok m') :
    ∃ k, m.Boundary k part.length := by
  obtain ⟨fits, whole⟩ := encode_eq_ok_iff.mp written
  obtain ⟨found, ⟨foundFits, rfl⟩, -⟩ := decode_eq_ok_iff.mp read
  have first : found <+: m.entries := prefix_of_octets fits foundFits whole.symm
  have taken : found = (m.upTo found.length).entries := List.prefix_iff_eq_take.mp first
  refine ⟨found.length, first.length_le, ?_⟩
  rw [← length_octets, ← taken]

theorem Boundary.unique {k' : Nat} (written : m.encode = .ok (part ++ more)) (boundary : m.Boundary k part.length)
    (boundary' : m.Boundary k' part.length) : k = k' := by
  have same := (boundary.spells written).unique (boundary'.spells written)
  have lengths := congrArg List.length same
  rwa [upTo, upTo, List.length_take_of_le boundary.within, List.length_take_of_le boundary'.within] at lengths

/-- Up to its last entry a map would be all there. -/
theorem Boundary.lt_size (written : m.encode = .ok (part ++ more)) (proper : part ≠ part ++ more)
    (boundary : m.Boundary k part.length) : k < m.size := by
  refine Nat.lt_of_le_of_ne boundary.within fun last => proper ?_
  have all : (m.upTo k).entries = m.entries := List.take_of_length_le (Nat.le_of_eq last.symm)
  have spells := boundary.spells written
  rw [all] at spells
  exact spells.octets_eq.trans (encode_eq_ok_iff.mp written).octets_eq.symm

theorem truncated_of_no_boundary (written : m.encode = .ok (part ++ more))
    (none : ∀ k, ¬m.Boundary k part.length) : Metadata.decode part = .error .metadataTruncated := by
  cases read : Metadata.decode part with
  | ok m' =>
    obtain ⟨k, boundary⟩ := boundary_of_decode written read
    exact absurd boundary (none k)
  | error fault => rw [truncated_of_decode (decode_of_encode written) read]

theorem curtailed (written : m.encode = .ok (part ++ more)) : m.Curtailed part where
  read_iff :=
    ⟨fun ⟨_, read⟩ => boundary_of_decode written read, fun ⟨k, boundary⟩ => ⟨m.upTo k, boundary.decode written⟩⟩
  unique boundary boundary' := boundary.unique written boundary'
  read k boundary := by
    have read := boundary.decode written
    exact ⟨read, fun target => by rw [decodeInto, read]⟩
  refused none := by
    have stopped := truncated_of_no_boundary written none
    exact ⟨stopped, fun target => by rw [decodeInto, stopped]⟩

/-- The beginning of a map in writing is read just when it ends between two entries, or before all, and then as the map
    of the keys before; otherwise it is refused as too short and the map that it was to be read into stays as it was. -/
theorem cut_maps_are_shorter_or_truncated (written : m.encode = .ok bs) (cut : part <+: bs) (proper : part ≠ bs) :
    m.Curtailed part ∧ (∀ k, m.Boundary k part.length → k < m.size) ∧ Fault.metadataTruncated.code = .metadataSize := by
  obtain ⟨more, rfl⟩ := cut
  exact ⟨curtailed written, fun k boundary => boundary.lt_size written proper, rfl⟩

/-- Two keys, the last of them with a value of one character in two octets. -/
def accented : Metadata := ofEntries [("k", ["x", "\u00e9"]), ("a", [])]

/-- After its first entry it is the map of the first key. Before its last octet the character lacks its end, and that is
    no flaw of the text. -/
theorem accented_is_shorter_or_truncated :
    accented.encode = .ok [0, 1, 0, 0, 0x61, 0, 1, 0, 2, 0x6B, 0, 1, 0x78, 0, 2, 0xC3, 0xA9] ∧
    decode [0, 1, 0, 0, 0x61] = .ok (accented.upTo 1) ∧
    decode [0, 1, 0, 0, 0x61, 0, 1, 0, 2, 0x6B, 0, 1, 0x78, 0, 2, 0xC3] = .error .metadataTruncated := by
  have written : accented.encode = .ok [0, 1, 0, 0, 0x61, 0, 1, 0, 2, 0x6B, 0, 1, 0x78, 0, 2, 0xC3, 0xA9] :=
    eq_ok_of_toOption (by decide +kernel)
  obtain ⟨first, -, -⟩ := cut_maps_are_shorter_or_truncated written
    (List.prefix_append [0, 1, 0, 0, 0x61] _) (by decide)
  obtain ⟨last, -, -⟩ := cut_maps_are_shorter_or_truncated written
    (List.prefix_append [0, 1, 0, 0, 0x61, 0, 1, 0, 2, 0x6B, 0, 1, 0x78, 0, 2, 0xC3] [0xA9]) (by decide)
  refine ⟨written, (first.read 1 ⟨by decide +kernel, by decide +kernel⟩).1, (last.refused ?_).1⟩
  rintro k ⟨within, ends⟩
  have few : k ≤ 2 := within
  revert ends
  match k, few with
  | 0, _ | 1, _ | 2, _ => decide +kernel

end Metadata
end Switchboard
