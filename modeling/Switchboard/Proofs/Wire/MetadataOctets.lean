import Switchboard.Metadata.Codec

/-! Metadata entries and the octets that spell them. A map in writing spells its entries in ascending order, but
    any order and any repetition is read: each reader takes exactly what spells its result off the front
    (`readEntry_eq_ok_iff`), so octets are read just when they spell some entries (`decode_eq_ok_iff`), and they
    spell no others (`Spells.unique`). Filing the entries one after the other keeps the last list of each key and
    makes the octets no longer. -/

namespace Switchboard
namespace Metadata

/-! ### Spelling -/

def valueOctets (value : String) : Bytes := Bytes.bigEndian 2 (Text.size value) ++ Text.bytes value

def entryOctets (e : MetadataEntry) : Bytes :=
  Bytes.bigEndian 2 (Text.size e.1) ++ (Bytes.bigEndian 2 e.2.length ++ (Text.bytes e.1 ++ e.2.flatMap valueOctets))

/-- The octets of entries one after the other. -/
def octets (entries : List MetadataEntry) : Bytes := entries.flatMap entryOctets

/-- Each size that an entry states fits in two octets. -/
structure EntryFits (e : MetadataEntry) : Prop where
  key : Text.size e.1 ≤ 65535
  count : e.2.length ≤ 65535
  values : ∀ value ∈ e.2, Text.size value ≤ 65535

def Fits (entries : List MetadataEntry) : Prop := ∀ e ∈ entries, EntryFits e

/-- Some octets are well-formed metadata: they are those of entries whose sizes fit. -/
structure Spells (entries : List MetadataEntry) (bs : Bytes) : Prop where
  fits : Fits entries
  octets_eq : bs = octets entries

@[simp] theorem octets_nil : octets [] = [] := rfl

@[simp] theorem octets_cons (e : MetadataEntry) (entries : List MetadataEntry) :
    octets (e :: entries) = entryOctets e ++ octets entries := rfl

theorem Fits.cons {e : MetadataEntry} {entries : List MetadataEntry} (h : EntryFits e) (hs : Fits entries) :
    Fits (e :: entries) :=
  List.forall_mem_cons.mpr ⟨h, hs⟩

/-! ### Sizes -/

theorem length_entryOctets (e : MetadataEntry) : (entryOctets e).length = entrySize e := by
  obtain ⟨key, values⟩ := e
  have hvalues : ∀ start, values.foldr (fun value n => 2 + Text.size value + n) start =
      (values.flatMap valueOctets).length + start := by
    intro start
    induction values with
    | nil => simp
    | cons value rest ih =>
      simp only [List.foldr_cons, ih, List.flatMap_cons, List.length_append, valueOctets, Bytes.length_bigEndian,
        Text.length_bytes]
      omega
  simp only [entryOctets, entrySize, hvalues, List.length_append, Bytes.length_bigEndian, Text.length_bytes]
  omega

theorem length_octets (m : Metadata) : (octets m.entries).length = m.encodedSize := by
  unfold encodedSize
  induction m.entries with
  | nil => rfl
  | cons e rest ih => rw [octets_cons, List.length_append, length_entryOctets, ih, List.foldr_cons]

theorem entryOctets_ne_nil (e : MetadataEntry) : entryOctets e ≠ [] := by
  intro h
  have hlen := congrArg List.length h
  simp only [entryOctets, List.length_append, Bytes.length_bigEndian, List.length_nil] at hlen
  omega

/-! ### Writing -/

section Writing

variable {n : Nat} {value : String} {values : List String} {e : MetadataEntry}

theorem write_sizePiece (field : MetadataField) (h : n ≤ 65535) :
    Piece.write [sizePiece field n] = (Bytes.bigEndian 2 n, .ok ()) := by
  unfold sizePiece
  rw [if_pos (by omega), Piece.write_ok]
  exact Prod.ext (List.append_nil _) rfl

theorem write_sizePiece_too_long (field : MetadataField) (h : 65535 < n) :
    Piece.write [sizePiece field n] = ([], .error (.metadataTooLong field n)) := by
  unfold sizePiece
  rw [if_neg (by omega)]
  rfl

theorem write_valuePieces (h : Text.size value ≤ 65535) :
    Piece.write (valuePieces value) = (valueOctets value, .ok ()) := by
  have := Piece.write_append_of_ok (write_sizePiece .value h) [.ok (Text.bytes value)]
  exact this.trans (Prod.ext (by simp [valueOctets, Piece.write, Piece.run]) rfl)

theorem write_valuePieces_too_long (h : 65535 < Text.size value) :
    Piece.write (valuePieces value) = ([], .error (.metadataTooLong .value (Text.size value))) := by
  have stop := write_sizePiece_too_long .value h
  exact (Piece.write_append_of_error (congrArg Prod.snd stop) [.ok (Text.bytes value)]).trans stop

theorem write_values (h : ∀ value ∈ values, Text.size value ≤ 65535) :
    Piece.write (values.flatMap valuePieces) = (values.flatMap valueOctets, .ok ()) := by
  induction values with
  | nil => rfl
  | cons value rest ih =>
    obtain ⟨hvalue, hrest⟩ := List.forall_mem_cons.mp h
    rw [List.flatMap_cons, Piece.write_append_of_ok (write_valuePieces hvalue), ih hrest]
    rfl

theorem write_values_too_long (h : ¬ ∀ value ∈ values, Text.size value ≤ 65535) :
    ∃ n, (Piece.write (values.flatMap valuePieces)).2 = .error (.metadataTooLong .value n) := by
  induction values with
  | nil => exact absurd (fun _ h => nomatch h) h
  | cons value rest ih =>
    rw [List.flatMap_cons]
    by_cases hvalue : Text.size value ≤ 65535
    · obtain ⟨n, hn⟩ := ih fun hrest => h (List.forall_mem_cons.mpr ⟨hvalue, hrest⟩)
      refine ⟨n, ?_⟩
      rw [Piece.write_append_of_ok (write_valuePieces hvalue)]
      exact hn
    · have stop := congrArg Prod.snd (write_valuePieces_too_long (Nat.lt_of_not_le hvalue))
      exact ⟨Text.size value, by rw [Piece.write_append_of_error stop, stop]⟩

theorem entryPieces_eq (e : MetadataEntry) : entryPieces e =
    [sizePiece .key (Text.size e.1)] ++ ([sizePiece .count e.2.length] ++
      ([.ok (Text.bytes e.1)] ++ e.2.flatMap valuePieces)) := rfl

theorem write_entryPieces (h : EntryFits e) : Piece.write (entryPieces e) = (entryOctets e, .ok ()) := by
  rw [entryPieces_eq, Piece.write_append_of_ok (write_sizePiece .key h.key),
    Piece.write_append_of_ok (write_sizePiece .count h.count), List.singleton_append, Piece.write_ok, write_values h.values]
  rfl

/-- The first size of an entry that does not fit ends the writing. -/
theorem write_entryPieces_too_long (h : ¬ EntryFits e) :
    ∃ field n, (Piece.write (entryPieces e)).2 = .error (.metadataTooLong field n) := by
  rw [entryPieces_eq]
  by_cases hkey : Text.size e.1 ≤ 65535
  · rw [Piece.write_append_of_ok (write_sizePiece .key hkey)]
    by_cases hcount : e.2.length ≤ 65535
    · obtain ⟨n, hn⟩ := write_values_too_long fun hvalues => h ⟨hkey, hcount, hvalues⟩
      refine ⟨.value, n, ?_⟩
      rw [Piece.write_append_of_ok (write_sizePiece .count hcount), List.singleton_append, Piece.write_ok]
      exact hn
    · have stop := congrArg Prod.snd (write_sizePiece_too_long .count (Nat.lt_of_not_le hcount))
      exact ⟨.count, e.2.length, by rw [Piece.write_append_of_error stop]; exact stop⟩
  · have stop := congrArg Prod.snd (write_sizePiece_too_long .key (Nat.lt_of_not_le hkey))
    exact ⟨.key, Text.size e.1, by rw [Piece.write_append_of_error stop]; exact stop⟩

theorem write_pieces {m : Metadata} (h : Fits m.entries) : Piece.write m.pieces = (octets m.entries, .ok ()) := by
  unfold pieces
  generalize m.entries = entries at h
  induction entries with
  | nil => rfl
  | cons e rest ih =>
    obtain ⟨he, hrest⟩ := List.forall_mem_cons.mp h
    rw [List.flatMap_cons, Piece.write_append_of_ok (write_entryPieces he), ih hrest]
    rfl

theorem write_pieces_too_long {m : Metadata} (h : ¬ Fits m.entries) :
    ∃ field n, (Piece.write m.pieces).2 = .error (.metadataTooLong field n) := by
  unfold pieces
  generalize m.entries = entries at h
  induction entries with
  | nil => exact absurd (fun _ h => nomatch h) h
  | cons e rest ih =>
    rw [List.flatMap_cons]
    by_cases he : EntryFits e
    · obtain ⟨field, n, hn⟩ := ih fun hrest => h (.cons he hrest)
      refine ⟨field, n, ?_⟩
      rw [Piece.write_append_of_ok (write_entryPieces he)]
      exact hn
    · obtain ⟨field, n, stop⟩ := write_entryPieces_too_long he
      exact ⟨field, n, by rw [Piece.write_append_of_error stop, stop]⟩

end Writing

/-! ### Reading

Each reader gives a result just when what spells it stands at the front, and hands on what follows. -/

section Reading

variable {bs rest : Bytes} {n count : Nat} {s : String} {e : MetadataEntry}

theorem readSize_eq_ok_iff : readSize bs = .ok (n, rest) ↔ n ≤ 65535 ∧ bs = Bytes.bigEndian 2 n ++ rest := by
  have hspan : n < Bytes.span 2 ↔ n ≤ 65535 := Nat.lt_succ_iff
  rw [← hspan, ← Bytes.number_eq_some_iff]
  unfold readSize
  rcases Bytes.number 2 bs with _ | ⟨m, tail⟩ <;> simp

theorem readText_eq_ok_iff : readText n bs = .ok (s, rest) ↔ Text.size s = n ∧ bs = Text.bytes s ++ rest := by
  unfold readText
  constructor
  · intro h
    split at h
    · cases h
    · rename_i head tail hcut
      obtain ⟨rfl, hlen⟩ := Bytes.cut_eq_some_iff.mp hcut
      split at h
      · rename_i t htext
        cases h
        obtain rfl := Text.ofBytes?_eq_some_iff.mp htext
        exact ⟨hlen, rfl⟩
      · cases h
  · rintro ⟨rfl, rfl⟩
    rw [← Text.length_bytes, Bytes.cut_append]
    simp

theorem bind_eq_ok {α β : Type} {x : Except Fault α} {f : α → Except Fault β} {b : β} :
    (x >>= f) = .ok b ↔ ∃ a, x = .ok a ∧ f a = .ok b := by
  cases x <;> simp [bind, Except.bind]

theorem readValues_eq_ok_iff {done values : List String} : readValues count bs done = .ok (values, rest) ↔
    ∃ found, values = done.reverse ++ found ∧ found.length = count ∧ (∀ value ∈ found, Text.size value ≤ 65535) ∧
      bs = found.flatMap valueOctets ++ rest := by
  induction count generalizing bs done with
  | zero =>
    constructor
    · intro h
      cases h
      exact ⟨[], by simp⟩
    · rintro ⟨found, rfl, hlen, -, rfl⟩
      obtain rfl := List.length_eq_zero_iff.mp hlen
      simp [readValues]
  | succ count ih =>
    simp only [readValues, bind_eq_ok, Prod.exists, readSize_eq_ok_iff, readText_eq_ok_iff, ih]
    constructor
    · rintro ⟨n, _, ⟨hn, rfl⟩, value, _, ⟨rfl, rfl⟩, found, rfl, rfl, hfound, rfl⟩
      exact ⟨value :: found, by simp, rfl, List.forall_mem_cons.mpr ⟨hn, hfound⟩, by simp [valueOctets]⟩
    · rintro ⟨found, rfl, hlen, hfound, rfl⟩
      obtain ⟨value, found, rfl⟩ := List.exists_cons_of_length_eq_add_one hlen
      obtain ⟨hvalue, hfound⟩ := List.forall_mem_cons.mp hfound
      refine ⟨_, _, ⟨hvalue, ?_⟩, value, found.flatMap valueOctets ++ rest, ⟨rfl, rfl⟩, found, ?_⟩
      · simp [valueOctets]
      · exact ⟨by simp, Nat.succ.inj hlen, hfound, rfl⟩

theorem readEntry_eq_ok_iff : readEntry bs = .ok (e, rest) ↔ EntryFits e ∧ bs = entryOctets e ++ rest := by
  obtain ⟨key, values⟩ := e
  simp only [readEntry, bind_eq_ok, Prod.exists, readSize_eq_ok_iff, readText_eq_ok_iff, readValues_eq_ok_iff]
  constructor
  · rintro ⟨keySize, _, ⟨hkey, rfl⟩, count, _, ⟨hcount, rfl⟩, key', _, ⟨rfl, rfl⟩, values', _,
      ⟨found, hfound, rfl, hvalues, rfl⟩, h⟩
    cases h
    obtain rfl : found = values := by simpa using hfound.symm
    exact ⟨⟨hkey, hcount, hvalues⟩, by simp [entryOctets]⟩
  · rintro ⟨⟨hkey, hcount, hvalues⟩, rfl⟩
    refine ⟨_, _, ⟨hkey, ?_⟩, _, _, ⟨hcount, rfl⟩, key, values.flatMap valueOctets ++ rest, ⟨rfl, rfl⟩, values, rest, ?_⟩
    · simp [entryOctets]
    · exact ⟨⟨values, by simp, rfl, hvalues, rfl⟩, rfl⟩

theorem readEntries_eq_ok_iff {done entries : List MetadataEntry} : readEntries bs done = .ok entries ↔
    ∃ found, entries = done.reverse ++ found ∧ Spells found bs := by
  induction hn : bs.length using Nat.strongRecOn generalizing bs done with
  | _ n ih =>
    unfold readEntries
    split
    · rename_i hempty
      obtain rfl := List.isEmpty_iff.mp hempty
      constructor
      · intro h
        cases h
        exact ⟨[], (List.append_nil _).symm, fun _ h => (nomatch h), rfl⟩
      · rintro ⟨found, rfl, -, hfound⟩
        cases found with
        | nil => simp
        | cons e found => exact absurd (List.append_eq_nil_iff.mp hfound.symm).1 (entryOctets_ne_nil e)
    · rename_i hne
      split
      · rename_i e rest hentry
        have hlt := length_of_readEntry hentry
        obtain ⟨he, rfl⟩ := readEntry_eq_ok_iff.mp hentry
        rw [ih rest.length (hn ▸ hlt) rfl]
        constructor
        · rintro ⟨found, rfl, hfits, rfl⟩
          exact ⟨e :: found, by simp, .cons he hfits, rfl⟩
        · rintro ⟨found, rfl, hfits, hfound⟩
          cases found with
          | nil => exact absurd (List.isEmpty_iff.mpr hfound) hne
          | cons e' found =>
            -- What is read first is settled by the octets, so both readings begin with the same entry.
            have hfirst := readEntry_eq_ok_iff.mpr ⟨hfits e' List.mem_cons_self, hfound⟩
            rw [hentry] at hfirst
            cases hfirst
            exact ⟨found, by simp, (List.forall_mem_cons.mp hfits).2, rfl⟩
      · rename_i fault hentry
        constructor
        · intro h
          cases h
        · rintro ⟨found, rfl, hfits, hfound⟩
          cases found with
          | nil => exact absurd (List.isEmpty_iff.mpr hfound) hne
          | cons e found =>
            rw [readEntry_eq_ok_iff.mpr ⟨hfits e List.mem_cons_self, hfound⟩] at hentry
            cases hentry

/-- Octets spell one list of entries at most. -/
theorem Spells.unique {a b : List MetadataEntry} (ha : Spells a bs) (hb : Spells b bs) : a = b := by
  have hfound : readEntries bs [] = .ok a := readEntries_eq_ok_iff.mpr ⟨a, rfl, ha⟩
  rw [readEntries_eq_ok_iff.mpr ⟨b, rfl, hb⟩] at hfound
  exact (Except.ok.inj hfound).symm

theorem decode_eq_ok_iff {m : Metadata} : decode bs = .ok m ↔ ∃ entries, Spells entries bs ∧ m = ofEntries entries := by
  unfold decode
  rcases hfound : readEntries bs [] with fault | entries
  · constructor
    · intro h
      cases h
    · rintro ⟨entries, hspells, -⟩
      rw [readEntries_eq_ok_iff.mpr ⟨entries, rfl, hspells⟩] at hfound
      cases hfound
  · obtain ⟨_, rfl, hspells⟩ := readEntries_eq_ok_iff.mp hfound
    constructor
    · intro h
      cases h
      exact ⟨_, hspells, rfl⟩
    · rintro ⟨entries, hentries, rfl⟩
      obtain rfl := hspells.unique hentries
      rfl

end Reading

/-! ### Filing

Of a repeated key the entry filed last counts. Filing adds no entry that was not given, and entries that ascend are
a map as they are. -/

section Filing

variable {m : Metadata} {key : String} {values : List String} {a : MetadataEntry} {entries : List MetadataEntry}

/-- A map after entries are filed in it one after the other. -/
def file (m : Metadata) (entries : List MetadataEntry) : Metadata := entries.foldl (fun m e => m.set e.1 e.2) m

/-- The values that the last entry under a key files. -/
def filed (entries : List MetadataEntry) (key : String) : Option (List String) :=
  (entries.reverse.find? fun e => e.1 == key).map (·.2)

theorem file_cons (m : Metadata) (e : MetadataEntry) (entries : List MetadataEntry) :
    m.file (e :: entries) = (m.set e.1 e.2).file entries := rfl

theorem mem_update_const : ∀ {entries : List MetadataEntry}, a ∈ update key (fun _ => values) entries →
    a = (key, values) ∨ a ∈ entries
  | [], h => .inl (List.mem_singleton.mp h)
  | e :: rest, h => by
    unfold update at h
    split at h
    · exact (List.mem_cons.mp h).imp_right (List.mem_cons_of_mem _)
    · split at h
      · exact List.mem_cons.mp h
      · rcases List.mem_cons.mp h with rfl | h
        · exact .inr List.mem_cons_self
        · exact (mem_update_const h).imp_right (List.mem_cons_of_mem _)

theorem mem_file (h : a ∈ (m.file entries).entries) : a ∈ m.entries ∨ a ∈ entries := by
  induction entries generalizing m with
  | nil => exact .inl h
  | cons e rest ih =>
    rcases ih h with h | h
    · rcases mem_update_const h with rfl | h
      · exact .inr List.mem_cons_self
      · exact .inl h
    · exact .inr (List.mem_cons_of_mem _ h)

theorem Fits.ofEntries (h : Fits entries) : Fits (ofEntries entries).entries := by
  intro e he
  rcases mem_file (m := empty) he with he | he
  · nomatch he
  · exact h e he

theorem length_octets_update (key : String) (values : List String) : ∀ entries : List MetadataEntry,
    (octets (update key (fun _ => values) entries)).length ≤
      (octets entries).length + (entryOctets (key, values)).length
  | [] => by simp [update]
  | e :: rest => by
    have ih := length_octets_update key values rest
    unfold update
    split
    · simp only [octets_cons, List.length_append]
      omega
    · split <;> simp only [octets_cons, List.length_append] <;> omega

theorem length_octets_file (m : Metadata) (entries : List MetadataEntry) :
    (octets (m.file entries).entries).length ≤ (octets m.entries).length + (octets entries).length := by
  induction entries generalizing m with
  | nil => simp [file]
  | cons e rest ih =>
    have hset : (octets (m.set e.1 e.2).entries).length ≤ (octets m.entries).length + (entryOctets e).length :=
      length_octets_update e.1 e.2 m.entries
    have := ih (m.set e.1 e.2)
    rw [file_cons, octets_cons, List.length_append]
    omega

/-- Filed entries take up no more octets than before. -/
theorem encodedSize_ofEntries (entries : List MetadataEntry) :
    (ofEntries entries).encodedSize ≤ (octets entries).length := by
  have h := length_octets_file empty entries
  rw [length_octets] at h
  exact Nat.le_trans h (Nat.le_of_eq (Nat.zero_add _))

theorem update_of_before : ∀ {entries : List MetadataEntry}, (∀ e ∈ entries, Text.bytes e.1 < Text.bytes key) →
    update key (fun _ => values) entries = entries ++ [(key, values)]
  | [], _ => rfl
  | e :: rest, h => by
    obtain ⟨he, hrest⟩ := List.forall_mem_cons.mp h
    have hne : e.1 ≠ key := fun heq => Std.lt_irrefl (heq ▸ he)
    have hbefore : Text.before key e.1 = false := by simpa [Text.before] using Std.le_of_lt he
    simp [update, hne, hbefore, update_of_before hrest]

theorem entries_file (h : Ascending (m.entries ++ entries)) : (m.file entries).entries = m.entries ++ entries := by
  induction entries generalizing m with
  | nil => exact (List.append_nil _).symm
  | cons e rest ih =>
    have hbefore : ∀ x ∈ m.entries, Text.bytes x.1 < Text.bytes e.1 := fun x hx =>
      (List.pairwise_append.mp h).2.2 x hx e List.mem_cons_self
    have hset : (m.set e.1 e.2).entries = m.entries ++ [e] := update_of_before hbefore
    have hsplit : m.entries ++ e :: rest = (m.set e.1 e.2).entries ++ rest := by simp [hset]
    rw [file_cons, ih (hsplit ▸ h), hsplit]

theorem ofEntries_entries_iff : (ofEntries entries).entries = entries ↔ Ascending entries :=
  ⟨fun h => h ▸ (ofEntries entries).ascending, fun h => entries_file (m := empty) h⟩

theorem ext_entries {m n : Metadata} (h : m.entries = n.entries) : m = n := by
  cases m
  cases n
  cases h
  rfl

theorem ofEntries_entries (m : Metadata) : ofEntries m.entries = m :=
  ext_entries (ofEntries_entries_iff.mpr m.ascending)

/-- Nothing is filed under a key before the first. -/
theorem find_of_before (h : Ascending entries) (before : ∀ e ∈ entries.head?, Text.before key e.1) :
    (entries.find? fun e => e.1 == key) = none := by
  cases entries with
  | nil => rfl
  | cons e rest =>
    have first : Text.bytes key < Text.bytes e.1 := by simpa [Text.before] using before e rfl
    refine List.find?_eq_none.mpr fun a mem is => ?_
    have later : Text.bytes key < Text.bytes a.1 := by
      rcases List.mem_cons.mp mem with rfl | mem
      · exact first
      · exact Std.lt_trans first (List.rel_of_pairwise_cons h mem)
    rw [beq_iff_eq.mp is] at later
    exact Std.lt_irrefl later

/-- To change what is filed under a key changes what is found under it, and nothing else. -/
theorem find_update {k : String} (f : List String → List String) (h : Ascending entries) :
    ((update key f entries).find? fun e => e.1 == k) =
      if key = k then some (key, f (((entries.find? fun e => e.1 == key).map (·.2)).getD []))
      else entries.find? fun e => e.1 == k := by
  induction entries with
  | nil => by_cases same : key = k <;> simp [update, same]
  | cons e rest ih =>
    unfold update
    by_cases here : e.1 = key
    · rw [if_pos here]
      by_cases same : key = k <;> simp [here, same]
    · rw [if_neg here]
      by_cases before : Text.before key e.1
      · rw [if_pos before, find_of_before h (by simpa using before)]
        by_cases same : key = k <;> simp [List.find?_cons, same]
      · rw [if_neg before, List.find?_cons, List.find?_cons, List.find?_cons, ih h.of_cons, beq_false_of_ne here]
        by_cases is : e.1 = k
        · have other : key ≠ k := fun same => here (is.trans same.symm)
          simp [is, other]
        · rw [beq_false_of_ne is]

theorem get?_set {k : String} : (m.set key values).get? k = if key = k then some values else m.get? k := by
  unfold get? set
  rw [find_update _ m.ascending]
  split <;> rfl

theorem get?_append {value k : String} : (m.append key value).get? k =
    if key = k then some ((m.get? key).getD [] ++ [value]) else m.get? k := by
  unfold get? append
  rw [find_update _ m.ascending]
  split <;> rfl

theorem get?_prepend {value k : String} : (m.prepend key value).get? k =
    if key = k then some (value :: (m.get? key).getD []) else m.get? k := by
  unfold get? prepend
  rw [find_update _ m.ascending]
  split <;> rfl

theorem get?_file (m : Metadata) (entries : List MetadataEntry) (k : String) :
    (m.file entries).get? k = (filed entries k).or (m.get? k) := by
  induction entries generalizing m with
  | nil => rfl
  | cons e rest ih =>
    rw [file_cons, ih, get?_set]
    unfold filed
    rw [List.reverse_cons, List.find?_append]
    cases rest.reverse.find? fun e => e.1 == k with
    | none => by_cases h : e.1 = k <;> simp [h]
    | some e' => rfl

/-- Of a repeated key the last entry counts. -/
theorem get?_ofEntries (entries : List MetadataEntry) (k : String) : (ofEntries entries).get? k = filed entries k := by
  have h := get?_file empty entries k
  rwa [show empty.get? k = none from rfl, Option.or_none] at h

end Filing

end Metadata
end Switchboard
