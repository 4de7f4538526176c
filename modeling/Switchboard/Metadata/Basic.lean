import Switchboard.Text.Utf8

/-! Metadata: the texts filed under keys that accompany a packet. A map keeps its keys in ascending
    order of their octets, so equal maps are equal lists of entries. -/

namespace Switchboard

/-- A key and the values filed under it, in order. -/
abbrev MetadataEntry := String × List String

def Ascending (entries : List MetadataEntry) : Prop :=
  entries.Pairwise fun a b => Text.bytes a.1 < Text.bytes b.1

/-- Lists of texts filed under keys. -/
structure Metadata where
  entries : List MetadataEntry
  ascending : Ascending entries
  deriving DecidableEq

namespace Metadata

def empty : Metadata := ⟨[], List.Pairwise.nil⟩

instance : Inhabited Metadata := ⟨empty⟩

def size (m : Metadata) : Nat := m.entries.length

def isEmpty (m : Metadata) : Bool := m.entries.isEmpty

def get? (m : Metadata) (key : String) : Option (List String) :=
  (m.entries.find? fun e => e.1 == key).map (·.2)

def first? (m : Metadata) (key : String) : Option String := (m.get? key).bind List.head?

/-! ### Changing one key -/

/-- Files under `key` what `f` makes of the values there, or of none. -/
def update (key : String) (f : List String → List String) : List MetadataEntry → List MetadataEntry
  | [] => [(key, f [])]
  | e :: rest =>
    if e.1 = key then (key, f e.2) :: rest
    else if Text.before key e.1 then (key, f []) :: e :: rest
    else e :: update key f rest

theorem mem_update {key : String} {f : List String → List String} {a : MetadataEntry} :
    ∀ {entries : List MetadataEntry}, a ∈ update key f entries → a.1 = key ∨ a ∈ entries
  | [], h => by simp [update] at h; simp [h]
  | e :: rest, h => by
    unfold update at h
    split at h
    · rcases List.mem_cons.mp h with rfl | h
      · exact .inl rfl
      · exact .inr (List.mem_cons_of_mem _ h)
    · split at h
      · rcases List.mem_cons.mp h with rfl | h
        · exact .inl rfl
        · exact .inr h
      · rcases List.mem_cons.mp h with rfl | h
        · exact .inr List.mem_cons_self
        · exact (mem_update h).imp_right (List.mem_cons_of_mem _)

/-- Of two different keys one comes before the other. -/
theorem before_of_not_before {s t : String} (hne : s ≠ t) (h : ¬ Text.bytes s < Text.bytes t) :
    Text.bytes t < Text.bytes s := by
  rcases Std.le_iff_lt_or_eq.mp (Std.not_lt.mp h) with hlt | heq
  · exact hlt
  · exact absurd (Text.bytes_injective heq).symm hne

theorem ascending_update {key : String} {f : List String → List String} :
    ∀ {entries : List MetadataEntry}, Ascending entries → Ascending (update key f entries)
  | [], _ => List.pairwise_singleton _ _
  | e :: rest, h => by
    obtain ⟨hfirst, hrest⟩ := List.pairwise_cons.mp h
    unfold update
    split
    · rename_i heq
      exact List.pairwise_cons.mpr ⟨fun a ha => heq ▸ hfirst a ha, hrest⟩
    · rename_i hne
      split
      · rename_i hbefore
        have hlt : Text.bytes key < Text.bytes e.1 := by simpa [Text.before] using hbefore
        refine List.pairwise_cons.mpr ⟨fun a ha => ?_, h⟩
        rcases List.mem_cons.mp ha with rfl | ha
        · exact hlt
        · exact Std.lt_trans hlt (hfirst a ha)
      · rename_i hbefore
        refine List.pairwise_cons.mpr ⟨fun a ha => ?_, ascending_update hrest⟩
        rcases mem_update ha with hkey | ha
        · rw [hkey]
          exact before_of_not_before (Ne.symm hne) (by simpa [Text.before] using hbefore)
        · exact hfirst a ha

/-- Files `values` under a key in place of what is there. -/
def set (m : Metadata) (key : String) (values : List String) : Metadata :=
  ⟨update key (fun _ => values) m.entries, ascending_update m.ascending⟩

def append (m : Metadata) (key value : String) : Metadata :=
  ⟨update key (· ++ [value]) m.entries, ascending_update m.ascending⟩

/-- Files one more value under a key before those there. -/
def prepend (m : Metadata) (key value : String) : Metadata :=
  ⟨update key (value :: ·) m.entries, ascending_update m.ascending⟩

def erase (m : Metadata) (key : String) : Metadata :=
  ⟨m.entries.filter fun e => e.1 != key, m.ascending.sublist List.filter_sublist⟩

/-- The map that a list of keys and value lists makes: of a repeated key the last list counts. -/
def ofEntries (entries : List MetadataEntry) : Metadata :=
  entries.foldl (fun m e => m.set e.1 e.2) empty

/-- The map that a list of pairs makes: the values of a repeated key gather in order. -/
def ofPairs (pairs : List (String × String)) : Metadata :=
  pairs.foldr (fun p m => m.prepend p.1 p.2) empty

/-- The pairs of a key and one of its values, in order; a key without values is in none. -/
def pairs (m : Metadata) : List (String × String) :=
  m.entries.flatMap fun e => e.2.map fun value => (e.1, value)

end Metadata
end Switchboard
