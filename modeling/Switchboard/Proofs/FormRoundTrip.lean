import Mathlib.Data.List.Induction
import Switchboard.Metadata.Form
import Switchboard.Proofs.Wire.FormOctets
import Switchboard.Proofs.Wire.MetadataOctets

/-! Form text carries the values of a map, each under its key and in order. A key without values leaves no trace in it,
    and nothing else is lost. A map is what is found under each key, whichever way the values came there. -/

namespace Switchboard
namespace Metadata

variable {m n : Metadata} {key : String} {values : List String} {entries : List MetadataEntry}

/-! ### What is found under a key -/

theorem distinct_of_ascending (h : Ascending entries) : entries.Pairwise fun a b => a.1 ≠ b.1 := by
  apply h.imp
  intro a b before same
  rw [same] at before
  exact Std.lt_irrefl before

/-- A key has one entry. -/
theorem entry_unique (h : Ascending entries) {a b : MetadataEntry} (ha : a ∈ entries) (hb : b ∈ entries)
    (same : a.1 = b.1) : a = b :=
  List.Pairwise.forall_of_forall_of_flip (R := fun a b => a.1 = b.1 → a = b) (fun _ _ _ => rfl)
    ((distinct_of_ascending h).imp fun ne is => absurd is ne)
    ((distinct_of_ascending h).imp fun ne is => absurd is.symm ne) ha hb same

theorem mem_entries_iff : (key, values) ∈ m.entries ↔ m.get? key = some values := by
  have is {e : MetadataEntry} (found : m.entries.find? (fun e => e.1 == key) = some e) : e.1 = key ∧ e ∈ m.entries :=
    ⟨by simpa using List.find?_some found, List.mem_of_find?_eq_some found⟩
  unfold get?
  rw [Option.map_eq_some_iff]
  constructor
  · intro mem
    have some : (m.entries.find? fun e => e.1 == key).isSome := List.find?_isSome.mpr ⟨_, mem, beq_self_eq_true key⟩
    obtain ⟨e, found⟩ := Option.isSome_iff_exists.mp some
    obtain rfl : e = (key, values) := entry_unique m.ascending (is found).2 mem (is found).1
    exact ⟨_, found, rfl⟩
  · rintro ⟨⟨_, _⟩, found, rfl⟩
    obtain ⟨rfl, mem⟩ := is found
    exact mem

/-- Maps in which the same is found under every key are the same. -/
theorem ext_get? (same : ∀ key, m.get? key = n.get? key) : m = n := by
  have nodup (m : Metadata) : m.entries.Nodup := (distinct_of_ascending m.ascending).imp fun ne is => ne (congrArg _ is)
  have perm : m.entries.Perm n.entries := (List.perm_ext_iff_of_nodup (nodup m) (nodup n)).mpr fun ⟨key, values⟩ => by
    rw [mem_entries_iff, mem_entries_iff, same]
  -- Two orders of the same entries, both ascending.
  refine ext_entries (perm.eq_of_pairwise (fun _ _ _ _ before after => ?_) m.ascending n.ascending)
  exact absurd (Std.lt_trans before after) Std.lt_irrefl

/-! ### Pairs -/

/-- What is found under a key that was given these values one by one: without any, the key is not there. -/
def given : List String → Option (List String)
  | [] => none
  | value :: values => some (value :: values)

/-- The values paired with a key, in order. -/
def paired (pairs : List (String × String)) (key : String) : List String :=
  (pairs.filter fun p => p.1 == key).map (·.2)

theorem getD_given (values : List String) : (given values).getD [] = values := by
  cases values <;> rfl

theorem bind_given (values : List String) : (given values).bind given = given values := by
  cases values <;> rfl

theorem given_eq_some_iff {given' : List String} : given values = some given' ↔ values = given' ∧ given' ≠ [] := by
  cases values with
  | nil => simp [given, eq_comm]
  | cons value values =>
    rw [given, Option.some.injEq]
    exact ⟨fun is => ⟨is, is ▸ List.cons_ne_nil _ _⟩, And.left⟩

theorem paired_append (first second : List (String × String)) (key : String) :
    paired (first ++ second) key = paired first key ++ paired second key := by
  simp [paired]

/-- The pairs of one entry. -/
theorem paired_entry (e : MetadataEntry) (key : String) :
    paired (e.2.map fun value => (e.1, value)) key = if e.1 = key then e.2 else [] := by
  split <;> rename_i is <;> simp [paired, List.filter_map, Function.comp_def, is]

theorem paired_singleton (p : String × String) (key : String) : paired [p] key = if p.1 = key then [p.2] else [] :=
  paired_entry (p.1, [p.2]) key

theorem get?_ofPairs (pairs : List (String × String)) (key : String) :
    (ofPairs pairs).get? key = given (paired pairs key) := by
  induction pairs with
  | nil => rfl
  | cons p pairs ih =>
    change ((ofPairs pairs).prepend p.1 p.2).get? key = given (paired ([p] ++ pairs) key)
    rw [get?_prepend, paired_append, paired_singleton]
    split
    · rename_i same
      rw [same, ih, getD_given]
      rfl
    · exact ih

/-- The values of a repeated key gather in the order in which they come. -/
theorem ofPairs_eq_foldl (pairs : List (String × String)) :
    ofPairs pairs = pairs.foldl (fun m p => m.append p.1 p.2) empty := by
  refine ext_get? fun key => ?_
  induction pairs using List.reverseRecOn with
  | nil => rfl
  | append_singleton pairs p ih =>
    rw [get?_ofPairs] at ih ⊢
    rw [List.foldl_append, List.foldl_cons, List.foldl_nil, get?_append, paired_append, paired_singleton]
    split
    · rename_i same
      rw [same, ← ih, getD_given]
      cases paired pairs key <;> rfl
    · rw [List.append_nil, ih]

/-- The values paired with a key in a map are those found under it. -/
theorem paired_pairs (m : Metadata) (key : String) : paired m.pairs key = (m.get? key).getD [] := by
  obtain ⟨entries, ascending⟩ := m
  unfold pairs get?
  induction entries with
  | nil => rfl
  | cons e rest ih =>
    have ih := ih ascending.of_cons
    rw [List.flatMap_cons, paired_append, paired_entry, ih, List.find?_cons]
    by_cases is : e.1 = key
    · -- Keys are distinct, so no later entry adds to this one.
      have others : (rest.find? fun e => e.1 == key) = none := by
        refine List.find?_eq_none.mpr fun a mem again => ?_
        exact List.rel_of_pairwise_cons (distinct_of_ascending ascending) mem (is.trans (beq_iff_eq.mp again).symm)
      simp [is, others]
    · simp [beq_false_of_ne is, is]

/-! ### A map without the keys that have no values -/

/-- A map without the keys that have no values. -/
def valued (m : Metadata) : Metadata :=
  ⟨m.entries.filter fun e => e.2 ≠ [], m.ascending.sublist List.filter_sublist⟩

theorem get?_valued (m : Metadata) (key : String) : m.valued.get? key = (m.get? key).bind given := by
  ext values
  rw [← mem_entries_iff, valued, List.mem_filter, mem_entries_iff, Option.bind_eq_some_iff]
  simp [given_eq_some_iff]

theorem ofPairs_pairs (m : Metadata) : ofPairs m.pairs = m.valued := by
  refine ext_get? fun key => ?_
  rw [get?_ofPairs, paired_pairs, get?_valued]
  cases m.get? key <;> rfl

theorem valued_ofPairs (pairs : List (String × String)) : (ofPairs pairs).valued = ofPairs pairs := by
  refine ext_get? fun key => ?_
  rw [get?_valued, get?_ofPairs, bind_given]

theorem ofForm_toForm (m : Metadata) : ofForm m.toForm = m.valued := by
  rw [ofForm, toForm, Text.Form.decode_encode, ofPairs_pairs]

/-- The form text of a map stands for the map without the keys that have no values: under each other key the same values
    are found in the same order, whatever characters they have. Any text stands for a map, in which the values of a
    repeated key gather as they come, and which its own form text brings back whole. -/
theorem forms_bring_back_their_values :
    (∀ m : Metadata, ofForm m.toForm = m.valued) ∧
    (∀ (m : Metadata) (key : String), (ofForm m.toForm).get? key = (m.get? key).bind given) ∧
    ∀ s : String, ofForm s = (Text.Form.decode s).foldl (fun m p => m.append p.1 p.2) empty ∧
      ofForm (ofForm s).toForm = ofForm s :=
  ⟨ofForm_toForm, fun m key => by rw [ofForm_toForm, get?_valued],
    fun s => ⟨ofPairs_eq_foldl _, by rw [ofForm_toForm, ofForm, valued_ofPairs]⟩⟩

/-- Text that no map is written as stands for a map as well. -/
example : (ofEntries [("user", ["a b", "c&d"]), ("trace", ["1"]), ("", [""]), ("none", [])]).toForm =
      "=&trace=1&user=a+b&user=c%26d" ∧
    ofForm "b&a=%zz&&a=%4a=+" = ofEntries [("a", ["%zz", "J= "]), ("b", [""])] := by decide +kernel

end Metadata
end Switchboard
