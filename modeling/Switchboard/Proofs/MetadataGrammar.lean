import Switchboard.Proofs.MetadataRoundTrip

/-! Which octets are read as metadata: those that spell entries, and they are read as the map in which the last entry of
    each key counts. All others have a first flaw: read from the left they are well formed up to some place within an
    entry, and what is needed there is cut short or no text. It decides the fault, and the map that they were to be
    read into stays as it is. -/

namespace Switchboard
namespace Metadata

/-! ### The first flaw -/

/-- What comes next where octets are read from the left: a size, or a text of so many octets. -/
inductive Need where
  | size
  | text (length : Nat)

def Need.width : Need → Nat
  | size => 2
  | text n => n

/-- What may be wrong with octets. -/
inductive Flaw where
  /-- Fewer are left than are needed. -/
  | short
  /-- There are enough for a text, but they are none. -/
  | illegible

def Flaw.fault : Flaw → Fault
  | short => .metadataTruncated
  | illegible => .metadataNotText

def Flaw.code : Flaw → Code
  | short => .metadataSize
  | illegible => .unmarshal

/-- What is left has a flaw where something is needed. -/
inductive Need.Flawed : Need → Bytes → Flaw → Prop where
  | short {need : Need} {rest : Bytes} (few : rest.length < need.width) : Flawed need rest .short
  | illegible {n : Nat} {head rest : Bytes} (length : head.length = n) (noText : ∀ s, head ≠ Text.bytes s) :
    Flawed (.text n) (head ++ rest) .illegible

/-- The beginning of a value, and what it needs next. -/
inductive InValue : Bytes → Need → Prop where
  | size : InValue [] .size
  | text {n : Nat} (fits : n ≤ 65535) : InValue (Bytes.bigEndian 2 n) (.text n)

/-- The beginning of an entry, and what it needs next. -/
inductive InEntry : Bytes → Need → Prop where
  | keySize : InEntry [] .size
  | count {n : Nat} (fits : n ≤ 65535) : InEntry (Bytes.bigEndian 2 n) .size
  | key {n count : Nat} (keyFits : n ≤ 65535) (countFits : count ≤ 65535) :
    InEntry (Bytes.bigEndian 2 n ++ Bytes.bigEndian 2 count) (.text n)
  | value {name : String} {values : List String} {count : Nat} {front : Bytes} {need : Need}
    (keyFits : Text.size name ≤ 65535) (countFits : count ≤ 65535) (more : values.length < count)
    (fit : ∀ value ∈ values, Text.size value ≤ 65535) (within : InValue front need) :
    InEntry (Bytes.bigEndian 2 (Text.size name) ++ (Bytes.bigEndian 2 count ++
      (Text.bytes name ++ (values.flatMap valueOctets ++ front)))) need

/-- Read from the left, octets are whole entries and then the beginning of one more, up to a flaw. -/
def FirstFlaw (bs : Bytes) (flaw : Flaw) : Prop :=
  ∃ entries front need rest, Fits entries ∧ InEntry front need ∧ front ++ rest ≠ [] ∧
    bs = octets entries ++ (front ++ rest) ∧ need.Flawed rest flaw

/-! ### Where each reader stops -/

variable {m : Metadata} {bs front rest : Bytes} {fault : Fault} {n count : Nat}

theorem bind_eq_error {α β : Type} {x : Except Fault α} {f : α → Except Fault β} :
    (x >>= f) = .error fault ↔ x = .error fault ∨ ∃ a, x = .ok a ∧ f a = .error fault := by
  cases x <;> simp [bind, Except.bind]

theorem readSize_eq_error_iff : readSize bs = .error fault ↔ ∃ flaw, Need.size.Flawed bs flaw ∧ fault = flaw.fault := by
  unfold readSize Bytes.number
  constructor
  · intro stopped
    cases found : Bytes.cut 2 bs with
    | none =>
      rw [found] at stopped
      cases stopped
      exact ⟨.short, .short (Bytes.cut_eq_none_iff.mp found), rfl⟩
    | some part =>
      rw [found] at stopped
      cases stopped
  · rintro ⟨flaw, flawed, rfl⟩
    cases flawed with
    | short few =>
      have none : Bytes.cut 2 bs = none := Bytes.cut_eq_none_iff.mpr few
      rw [none]
      rfl

theorem readText_eq_error_iff :
    readText n bs = .error fault ↔ ∃ flaw, (Need.text n).Flawed bs flaw ∧ fault = flaw.fault := by
  unfold readText
  constructor
  · intro stopped
    cases found : Bytes.cut n bs with
    | none =>
      rw [found] at stopped
      cases stopped
      exact ⟨.short, .short (Bytes.cut_eq_none_iff.mp found), rfl⟩
    | some part =>
      obtain ⟨head, rest⟩ := part
      obtain ⟨rfl, length⟩ := Bytes.cut_eq_some_iff.mp found
      rw [found] at stopped
      dsimp only at stopped
      split at stopped
      · cases stopped
      · rename_i none
        cases stopped
        refine ⟨.illegible, .illegible length fun s same => ?_, rfl⟩
        rw [Text.ofBytes?_eq_some_iff.mpr same] at none
        cases none
  · rintro ⟨flaw, flawed, rfl⟩
    cases flawed with
    | short few =>
      have none : Bytes.cut n bs = none := Bytes.cut_eq_none_iff.mpr few
      rw [none]
      rfl
    | @illegible _ head rest length noText =>
      have none : Text.ofBytes? head = none := Option.eq_none_iff_forall_ne_some.mpr fun s same =>
        noText s (Text.ofBytes?_eq_some_iff.mp same)
      rw [Bytes.cut_eq_some_iff.mpr ⟨rfl, length⟩]
      dsimp only
      rw [none]
      rfl

theorem readValues_eq_error_iff {done : List String} : readValues count bs done = .error fault ↔
    ∃ (found : List String) (front : Bytes) (need : Need) (rest : Bytes) (flaw : Flaw), found.length < count ∧
      (∀ value ∈ found, Text.size value ≤ 65535) ∧ InValue front need ∧
      bs = found.flatMap valueOctets ++ (front ++ rest) ∧ need.Flawed rest flaw ∧ fault = flaw.fault := by
  induction count generalizing bs done with
  | zero => simp [readValues]
  | succ count ih =>
    simp only [readValues, bind_eq_error, Prod.exists, readSize_eq_ok_iff, readText_eq_ok_iff, readSize_eq_error_iff,
      readText_eq_error_iff, ih]
    constructor
    · rintro (⟨flaw, flawed, rfl⟩ | ⟨n, _, ⟨fits, rfl⟩, ⟨flaw, flawed, rfl⟩ | ⟨value, _, ⟨rfl, rfl⟩, found, front, need,
        rest, flaw, more, fit, within, rfl, flawed, rfl⟩⟩)
      · exact ⟨[], [], .size, bs, flaw, Nat.succ_pos _, by simp, .size, rfl, flawed, rfl⟩
      · exact ⟨[], _, .text n, _, flaw, Nat.succ_pos _, by simp, .text fits, rfl, flawed, rfl⟩
      · exact ⟨value :: found, front, need, rest, flaw, Nat.succ_lt_succ more, List.forall_mem_cons.mpr ⟨fits, fit⟩, within,
          by simp [valueOctets], flawed, rfl⟩
    · rintro ⟨found, front, need, rest, flaw, more, fit, within, rfl, flawed, rfl⟩
      cases found with
      | nil =>
        cases within with
        | size => exact .inl ⟨flaw, flawed, rfl⟩
        | @text n fits => exact .inr ⟨n, rest, ⟨fits, rfl⟩, .inl ⟨flaw, flawed, rfl⟩⟩
      | cons value found =>
        obtain ⟨fits, fit⟩ := List.forall_mem_cons.mp fit
        refine .inr ⟨_, _, ⟨fits, ?_⟩, .inr ⟨value, found.flatMap valueOctets ++ (front ++ rest), ⟨rfl, rfl⟩, found, front,
          need, rest, flaw, Nat.lt_of_succ_lt_succ more, fit, within, rfl, flawed, rfl⟩⟩
        simp [valueOctets]

theorem readEntry_eq_error_iff : readEntry bs = .error fault ↔
    ∃ front need rest flaw, InEntry front need ∧ bs = front ++ rest ∧ need.Flawed rest flaw ∧ fault = flaw.fault := by
  simp only [readEntry, bind_eq_error, Prod.exists, readSize_eq_ok_iff, readText_eq_ok_iff, readSize_eq_error_iff,
    readText_eq_error_iff, readValues_eq_error_iff]
  constructor
  · rintro (⟨flaw, flawed, rfl⟩ | ⟨n, _, ⟨key, rfl⟩, ⟨flaw, flawed, rfl⟩ | ⟨count, _, ⟨fits, rfl⟩, ⟨flaw, flawed, rfl⟩ |
      ⟨name, _, ⟨rfl, rfl⟩, ⟨found, front, need, rest, flaw, more, fit, within, rfl, flawed, rfl⟩ | ⟨_, _, -, stopped⟩⟩⟩⟩)
    · exact ⟨[], .size, bs, flaw, .keySize, rfl, flawed, rfl⟩
    · exact ⟨_, .size, _, flaw, .count key, rfl, flawed, rfl⟩
    · exact ⟨_, .text n, _, flaw, .key key fits, (List.append_assoc ..).symm, flawed, rfl⟩
    · exact ⟨_, need, rest, flaw, .value key fits more fit within, by simp, flawed, rfl⟩
    · cases stopped
  · rintro ⟨front, need, rest, flaw, within, rfl, flawed, rfl⟩
    cases within with
    | keySize => exact .inl ⟨flaw, flawed, rfl⟩
    | count key => exact .inr ⟨_, _, ⟨key, rfl⟩, .inl ⟨flaw, flawed, rfl⟩⟩
    | key key fits =>
      exact .inr ⟨_, _, ⟨key, List.append_assoc ..⟩, .inr ⟨_, _, ⟨fits, rfl⟩, .inl ⟨flaw, flawed, rfl⟩⟩⟩
    | @value name values count front _ key fits more fit within =>
      refine .inr ⟨_, Bytes.bigEndian 2 count ++ (Text.bytes name ++ (values.flatMap valueOctets ++ (front ++ rest))),
        ⟨key, by simp⟩, .inr ⟨count, _, ⟨fits, rfl⟩, .inr ⟨name, _, ⟨rfl, rfl⟩, .inl ?_⟩⟩⟩
      exact ⟨values, front, need, rest, flaw, more, fit, within, rfl, flawed, rfl⟩

/-- A whole entry in front makes no difference to where the first flaw is. -/
theorem firstFlaw_append_iff {e : MetadataEntry} {flaw : Flaw} (fits : EntryFits e) :
    FirstFlaw (entryOctets e ++ bs) flaw ↔ FirstFlaw bs flaw := by
  constructor
  · rintro ⟨entries, front, need, rest, fit, within, begun, whole, flawed⟩
    have read : readEntry (entryOctets e ++ bs) = .ok (e, bs) := readEntry_eq_ok_iff.mpr ⟨fits, rfl⟩
    rw [whole] at read
    cases entries with
    | nil =>
      -- Octets that begin with an entry do not break off within it.
      have stopped := readEntry_eq_error_iff.mpr ⟨front, need, rest, flaw, within, rfl, flawed, rfl⟩
      cases read.symm.trans stopped
    | cons e' entries =>
      obtain ⟨fits', others⟩ := List.forall_mem_cons.mp fit
      have first := readEntry_eq_ok_iff.mpr ⟨fits', List.append_assoc (entryOctets e') (octets entries) (front ++ rest)⟩
      cases read.symm.trans first
      exact ⟨entries, front, need, rest, others, within, begun, rfl, flawed⟩
  · rintro ⟨entries, front, need, rest, fit, within, begun, rfl, flawed⟩
    exact ⟨e :: entries, front, need, rest, .cons fits fit, within, begun, (List.append_assoc ..).symm, flawed⟩

/-- Where the first entry cannot be read the first flaw is in it. -/
theorem firstFlaw_of_stopped {fault' : Fault} (begun : bs ≠ []) (stopped : readEntry bs = .error fault) :
    fault = fault' ↔ ∃ flaw, FirstFlaw bs flaw ∧ fault' = flaw.fault := by
  constructor
  · rintro rfl
    obtain ⟨front, need, rest, flaw, within, rfl, flawed, rfl⟩ := readEntry_eq_error_iff.mp stopped
    exact ⟨flaw, ⟨[], front, need, rest, fun _ h => (nomatch h), within, begun, rfl, flawed⟩, rfl⟩
  · rintro ⟨flaw, ⟨entries, front, need, rest, fit, within, -, rfl, flawed⟩, rfl⟩
    cases entries with
    | nil =>
      have again := readEntry_eq_error_iff.mpr ⟨front, need, rest, flaw, within, rfl, flawed, rfl⟩
      exact Except.error.inj (stopped.symm.trans again)
    | cons e entries =>
      have fits := (List.forall_mem_cons.mp fit).1
      have read := readEntry_eq_ok_iff.mpr ⟨fits, List.append_assoc (entryOctets e) (octets entries) (front ++ rest)⟩
      cases stopped.symm.trans read

theorem readEntries_eq_error_iff {done : List MetadataEntry} :
    readEntries bs done = .error fault ↔ ∃ flaw, FirstFlaw bs flaw ∧ fault = flaw.fault := by
  induction hn : bs.length using Nat.strongRecOn generalizing bs done with
  | _ n ih =>
    unfold readEntries
    split
    · rename_i hempty
      obtain rfl := List.isEmpty_iff.mp hempty
      constructor
      · intro stopped
        cases stopped
      · rintro ⟨flaw, ⟨entries, front, need, rest, -, -, begun, whole, -⟩, -⟩
        exact absurd (List.append_eq_nil_iff.mp whole.symm).2 begun
    · rename_i hne
      split
      · rename_i e rest found
        have shorter := length_of_readEntry found
        obtain ⟨fits, rfl⟩ := readEntry_eq_ok_iff.mp found
        rw [ih rest.length (hn ▸ shorter) rfl]
        exact exists_congr fun flaw => and_congr_left fun _ => (firstFlaw_append_iff fits).symm
      · rename_i fault' stopped
        rw [Except.error.injEq]
        exact firstFlaw_of_stopped (mt List.isEmpty_iff.mpr hne) stopped

theorem decode_eq_error_iff : decode bs = .error fault ↔ ∃ flaw, FirstFlaw bs flaw ∧ fault = flaw.fault := by
  have entries : readEntries bs [] = .error fault ↔ _ := readEntries_eq_error_iff
  rw [← entries]
  unfold decode
  cases readEntries bs [] <;> simp [Except.map]

/-! ### What is read -/

/-- A map that was read can be written, in no more octets than it was read from. -/
theorem encode_of_decode (read : decode bs = .ok m) : ∃ again, m.encode = .ok again ∧ again.length ≤ bs.length := by
  obtain ⟨entries, ⟨fits, rfl⟩, rfl⟩ := decode_eq_ok_iff.mp read
  refine ⟨_, encode_of_fits fits.ofEntries, ?_⟩
  rw [length_octets]
  exact encodedSize_ofEntries entries

/-- Octets are read as metadata just when they are entries one after the other, in one way only. The map has the values
    of the last entry under each key and no other keys; it is written in no more octets, and read from them again.
    Octets that are not read have a first flaw, which decides the fault, and leave the map that they were to be read into
    as it was. -/
theorem octets_are_read_up_to_a_flaw (bs : Bytes) :
    ((∃ m, decode bs = .ok m) ↔ ∃ entries, Spells entries bs) ∧
    (∀ m, decode bs = .ok m →
      (∀ entries, Spells entries bs → ∀ key, m.get? key = filed entries key) ∧
      ∃ again, m.encode = .ok again ∧ again.length ≤ bs.length ∧ decode again = .ok m) ∧
    (∀ fault, decode bs = .error fault ↔ ∃ flaw, FirstFlaw bs flaw ∧ fault = flaw.fault) ∧
    (∀ flaw : Flaw, flaw.fault.code = flaw.code) ∧
    ∀ m : Metadata, (∀ m', decode bs = .ok m' → m.decodeInto bs = (m', .ok ())) ∧
      ∀ fault, decode bs = .error fault → m.decodeInto bs = (m, .error fault) := by
  refine ⟨?_, fun m read => ⟨fun entries spells key => ?_, ?_⟩, fun fault => decode_eq_error_iff, ?_, fun m => ?_⟩
  · simp only [decode_eq_ok_iff]
    exact ⟨fun ⟨_, entries, spells, _⟩ => ⟨entries, spells⟩, fun ⟨entries, spells⟩ => ⟨_, entries, spells, rfl⟩⟩
  · obtain ⟨found, spells', rfl⟩ := decode_eq_ok_iff.mp read
    rw [spells'.unique spells, get?_ofEntries]
  · obtain ⟨again, written, shorter⟩ := encode_of_decode read
    exact ⟨again, written, shorter, decode_of_encode written⟩
  · rintro (_ | _) <;> rfl
  · unfold decodeInto
    exact ⟨fun m' read => by rw [read], fun fault stopped => by rw [stopped]⟩

end Metadata
end Switchboard
