import Switchboard.Proofs.Engine.Move

/-! The session table as a map from numbers to sessions: no number has two sessions. -/

namespace Switchboard
namespace SessionTable

variable {table : SessionTable} {n : UInt64} {entry entry' : Session} {ticket : Nat}

/-- No number has two sessions. -/
def Keyed (table : SessionTable) : Prop := (table.entries.map Prod.fst).Nodup

/-- The sessions of a ticket. -/
def sessionsOf (table : SessionTable) (ticket : Nat) : List (UInt64 × Session) :=
  table.entries.filter fun e => e.2.ticket == ticket

theorem mem_of_find (h : table.find n = some entry) : (n, entry) ∈ table.entries := by
  obtain ⟨before, after, heq, -⟩ := List.lookup_eq_some_iff.mp h
  rw [heq]
  exact List.mem_append_right _ List.mem_cons_self

theorem find_eq_none_iff : table.find n = none ↔ ∀ e ∈ table.entries, e.1 ≠ n := by
  unfold find
  rw [List.lookup_eq_none_iff]
  constructor
  · intro h e he heq
    exact absurd (h e he) (by simp [heq])
  · intro h e he
    exact bne_iff_ne.mpr (Ne.symm (h e he))

theorem Keyed.eq_of_mem (keyed : table.Keyed) (h : (n, entry) ∈ table.entries)
    (h' : (n, entry') ∈ table.entries) : entry = entry' := by
  have := List.inj_on_of_nodup_map keyed h h' rfl
  simpa using this

theorem Keyed.find_of_mem (keyed : table.Keyed) (h : (n, entry) ∈ table.entries) :
    table.find n = some entry := by
  cases hfind : table.find n with
  | none => exact absurd rfl (find_eq_none_iff.mp hfind _ h)
  | some found => rw [keyed.eq_of_mem (mem_of_find hfind) h]

theorem mem_sessionsOf {e : UInt64 × Session} :
    e ∈ table.sessionsOf ticket ↔ e ∈ table.entries ∧ e.2.ticket = ticket := by
  simp [sessionsOf]

theorem holds_iff : table.holds ticket = true ↔ table.sessionsOf ticket ≠ [] := by
  rw [holds, List.any_eq_true]
  constructor
  · rintro ⟨e, he, hticket⟩
    exact List.ne_nil_of_mem (mem_sessionsOf.mpr ⟨he, beq_iff_eq.mp hticket⟩)
  · intro h
    obtain ⟨e, he⟩ := List.exists_mem_of_ne_nil _ h
    obtain ⟨hmem, hticket⟩ := mem_sessionsOf.mp he
    exact ⟨e, hmem, beq_iff_eq.mpr hticket⟩

/-! ### Changes -/

theorem erase_of_find (h : table.find n = none) : table.erase n = table := by
  have hall := find_eq_none_iff.mp h
  have : table.entries.filter (fun e => e.1 != n) = table.entries :=
    List.filter_eq_self.mpr fun e he => by simpa using hall e he
  unfold erase
  rw [this]

theorem Keyed.erase (keyed : table.Keyed) (n : UInt64) : (table.erase n).Keyed :=
  keyed.sublist (List.filter_sublist.map _)

/-- A session that is found is one of those in the table, and the others stay without it. -/
theorem Keyed.perm_erase (keyed : table.Keyed) (found : table.find n = some entry) :
    table.entries.Perm ((n, entry) :: (table.erase n).entries) := by
  obtain ⟨before, after, heq, -⟩ := List.lookup_eq_some_iff.mp found
  have keys : ((before ++ (n, entry) :: after).map Prod.fst).Nodup := heq ▸ keyed
  rw [List.map_append, List.map_cons, List.nodup_middle, List.nodup_cons, List.mem_append, not_or] at keys
  have kept : ∀ l : List (UInt64 × Session), n ∉ l.map Prod.fst → l.filter (fun e => e.1 != n) = l := by
    intro l hl
    refine List.filter_eq_self.mpr fun e he => bne_iff_ne.mpr ?_
    rintro rfl
    exact hl (List.mem_map_of_mem he)
  have erased : (table.erase n).entries = before ++ after := by
    change table.entries.filter _ = _
    rw [heq, List.filter_append, List.filter_cons_of_neg (by simp), kept before keys.1.1, kept after keys.1.2]
  rw [erased, heq]
  exact List.perm_middle

theorem Keyed.insert (keyed : table.Keyed) (free : table.find n = none) : (table.insert n entry).Keyed := by
  unfold Keyed SessionTable.insert
  rw [List.map_append, List.nodup_append]
  refine ⟨keyed, by simp, ?_⟩
  intro a ha b hb
  obtain ⟨e, he, rfl⟩ := List.mem_map.mp ha
  obtain rfl : b = n := by simpa using hb
  exact find_eq_none_iff.mp free e he

theorem sessionsOf_erase : (table.erase n).sessionsOf ticket = (table.sessionsOf ticket).filter fun e => e.1 != n := by
  unfold sessionsOf erase
  simp only [List.filter_filter]
  congr 1
  funext e
  exact Bool.and_comm _ _

/-- Taking a session out does not touch those of other tickets. -/
theorem Keyed.sessionsOf_erase_of_ne (keyed : table.Keyed) (found : table.find n = some entry)
    (other : ticket ≠ entry.ticket) : (table.erase n).sessionsOf ticket = table.sessionsOf ticket := by
  rw [sessionsOf_erase, List.filter_eq_self]
  rintro ⟨k, e⟩ he
  obtain ⟨hmem, hticket⟩ := mem_sessionsOf.mp he
  have : k ≠ n := by
    rintro rfl
    exact other (hticket ▸ congrArg Session.ticket (keyed.eq_of_mem hmem (mem_of_find found)))
  simpa using this

theorem sessionsOf_insert : (table.insert n entry).sessionsOf ticket =
    table.sessionsOf ticket ++ if entry.ticket = ticket then [(n, entry)] else [] := by
  unfold sessionsOf insert
  rw [List.filter_append]
  congr 1
  by_cases h : entry.ticket = ticket <;> simp [h]

end SessionTable

namespace Engine

variable {s : Engine} {n : UInt64} {ticket : Nat} {entry : Session}

theorem strike_of_find (h : s.table.find n = none) : s.strike n = s := by
  unfold strike
  rw [SessionTable.erase_of_find h, h]

theorem unmail_of_lookup (h : s.mail.lookup ticket = none) : s.unmail ticket = s := by
  have : s.mail.filter (fun e => e.1 != ticket) = s.mail := by
    rw [List.lookup_eq_none_iff] at h
    exact List.filter_eq_self.mpr fun e he => bne_iff_ne.mpr (Ne.symm (bne_iff_ne.mp (h e he)))
  unfold unmail
  rw [this]

end Engine
end Switchboard
