import Switchboard.Proofs.Engine.Coherent

/-! What holds of a connection between any two moves. The invariant speaks of each ticket by itself, so a
    move about one ticket has to be looked at there only. -/

namespace Switchboard
namespace Engine

/-- Everything in hand, the calls and waits in progress included. -/
def estate (s : Engine) (H : Hands) : Hands := H + ↑(s.calls.map Token.calling) + ↑(s.waits.map Token.watching)

/-- How many in hand decide how the call with a ticket ends. -/
def Hands.holders (t : Nat) (H : Hands) : Nat := Multiset.countP (fun k => k.holds t = true) H

structure Inv (setup : Setup) (s : Engine) (H : Hands) : Prop where
  keyed : s.table.Keyed
  shut : s.table.closed = true → s.table.entries = [] ∧ Entry.closed ∈ s.journal
  sound : ∀ t, (s.standing t).Sound
  /-- Whoever decides how a call ends is the only one to do so, and the call has not ended. -/
  tally : ∀ t, (s.estate H).holders t + (s.standing t).stakes ≤ if t < s.tickets then 1 else 0
  fresh : ∀ t, s.tickets ≤ t → (s.standing t).account = {}
  fits : ∀ k ∈ s.estate H, k.Fits (s.standing k.ticket)
  coherent : Coherent setup s.journal

variable {setup : Setup} {s s' : Engine} {t u : Nat} {H K F : Hands} {k : Token}

/-! ### Counting -/

@[simp] theorem Hands.holders_zero : Hands.holders t 0 = 0 := rfl

@[simp] theorem Hands.holders_cons : Hands.holders t (k ::ₘ H) = Hands.holders t H + if k.holds t then 1 else 0 := by
  simp [Hands.holders, Multiset.countP_cons]

@[simp] theorem Hands.holders_singleton : Hands.holders t {k} = if k.holds t then 1 else 0 := by
  simp [Hands.holders, ← Multiset.cons_zero, Multiset.countP_cons]

@[simp] theorem Hands.holders_add : Hands.holders t (H + K) = Hands.holders t H + Hands.holders t K := by
  simp [Hands.holders, Multiset.countP_add]

theorem Hands.one_le_holders (hk : k ∈ H) (h : k.holds t = true) : 1 ≤ Hands.holders t H :=
  Multiset.countP_pos.mpr ⟨k, hk, h⟩

theorem Hands.holders_eq_zero (h : ∀ k ∈ H, k.holds t = false) : Hands.holders t H = 0 :=
  Multiset.countP_eq_zero.mpr fun k hk => by simp [h k hk]

theorem Hands.holders_map {α : Type} (f : α → Token) (l : List α) :
    Hands.holders t (Multiset.ofList (l.map f)) = l.countP fun a => (f a).holds t := by
  unfold Hands.holders
  rw [Multiset.coe_countP, List.countP_map]
  simp [Function.comp_def]

theorem estate_add : s.estate (H + F) = H + s.estate F := by
  unfold estate
  rw [Multiset.add_assoc, Multiset.add_assoc, Multiset.add_assoc]

/-- What is in hand depends on the calls and waits in progress only. -/
theorem estate_congr (calls : s'.calls = s.calls) (waits : s'.waits = s.waits) : s'.estate F = s.estate F := by
  unfold estate
  rw [calls, waits]

namespace Inv

theorem known_of_made (inv : Inv setup s H) {made : Made} (h : (s.standing t).account.made = some made) :
    t < s.tickets := by
  by_contra hlt
  rw [inv.fresh t (Nat.le_of_not_lt hlt)] at h
  cases h

theorem known_of_holds (inv : Inv setup s H) (hk : k ∈ s.estate H) (h : k.holds t = true) : t < s.tickets := by
  by_contra hlt
  have tally := inv.tally t
  rw [if_neg hlt] at tally
  have := Hands.one_le_holders hk h
  omega

/-- Where someone in hand decides how a call ends, or its callbacks are in the table, nobody else does. -/
theorem unheld (inv : Inv setup s (H + F)) (h : 1 ≤ Hands.holders u H + (s.standing u).stakes) :
    ∀ k ∈ s.estate F, k.holds u = false := by
  intro k hk
  by_contra hholds
  have one : 1 ≤ (s.estate F).holders u := Hands.one_le_holders hk (by simpa using hholds)
  have tally := inv.tally u
  rw [estate_add, Hands.holders_add] at tally
  split at tally <;> omega

/-- A move about one ticket preserves the invariant if it does so there. -/
theorem turn {taken given : Hands} (inv : Inv setup s (taken + F)) (u : Nat)
    (calls : s'.calls = s.calls) (waits : s'.waits = s.waits) (tickets : s'.tickets = s.tickets)
    (keyed : s'.table.Keyed)
    (shut : s'.table.closed = true → s'.table.entries = [] ∧ Entry.closed ∈ s'.journal)
    (told : ∃ es, s'.journal = es ++ s.journal) (coherent : Coherent setup s'.journal)
    (known : u < s.tickets)
    (others : ∀ t, t ≠ u → s'.standing t = s.standing t)
    (own : ∀ k ∈ given, ∀ t, k.holds t = true → t = u)
    (sound : (s'.standing u).Sound)
    (tally : Hands.holders u given + (s'.standing u).stakes ≤ Hands.holders u taken + (s.standing u).stakes)
    (frame : ∀ k ∈ s.estate F, k.holds u = true → k.Fits (s.standing u) → k.Fits (s'.standing u))
    (fits : ∀ k ∈ given, k.Fits (s'.standing k.ticket)) : Inv setup s' (given + F) where
  keyed := keyed
  shut := shut
  coherent := coherent
  sound t := by
    by_cases h : t = u
    · exact h ▸ sound
    · exact others t h ▸ inv.sound t
  tally t := by
    have same : s'.estate F = s.estate F := estate_congr calls waits
    have before := inv.tally t
    rw [estate_add, Hands.holders_add] at before
    rw [estate_add, Hands.holders_add, same, tickets]
    by_cases h : t = u
    · subst h
      omega
    · -- Nothing that is given holds another ticket.
      have : Hands.holders t given = 0 := by
        refine Hands.holders_eq_zero fun k hk => ?_
        by_contra hholds
        exact h (own k hk t (by simpa using hholds))
      rw [others t h]
      omega
  fresh t ht := by
    rw [tickets] at ht
    have h : t ≠ u := by omega
    exact others t h ▸ inv.fresh t ht
  fits k hk := by
    have same : s'.estate F = s.estate F := estate_congr calls waits
    rw [estate_add, same] at hk
    rcases Multiset.mem_add.mp hk with hk | hk
    · exact fits k hk
    have before := inv.fits k (by rw [estate_add]; exact Multiset.mem_add.mpr (.inr hk))
    by_cases h : k.ticket = u
    · -- Who holds the ticket is looked at by the caller; who only knows of it loses nothing as its account grows.
      by_cases hholds : k.holds u = true
      · rw [h] at before ⊢
        exact frame k hk hholds before
      · refine before.extend (by rw [h]; simpa using hholds) ?_
        obtain ⟨es, hes⟩ := told
        change (account k.ticket s.journal).Extends (account k.ticket s'.journal)
        rw [hes]
        exact extends_account es s.journal
    · exact others _ h ▸ before

/-- A move that changes no standing preserves the invariant. -/
theorem still {taken given : Hands} (inv : Inv setup s (taken + F))
    (calls : s'.calls = s.calls) (waits : s'.waits = s.waits) (tickets : s'.tickets = s.tickets)
    (keyed : s'.table.Keyed)
    (shut : s'.table.closed = true → s'.table.entries = [] ∧ Entry.closed ∈ s'.journal)
    (coherent : Coherent setup s'.journal) (standing : ∀ t, s'.standing t = s.standing t)
    (tally : ∀ t, Hands.holders t given ≤ Hands.holders t taken)
    (fits : ∀ k ∈ given, k.Fits (s.standing k.ticket)) : Inv setup s' (given + F) where
  keyed := keyed
  shut := shut
  coherent := coherent
  sound t := standing t ▸ inv.sound t
  tally t := by
    have same : s'.estate F = s.estate F := estate_congr calls waits
    have before := inv.tally t
    have fewer := tally t
    rw [estate_add, Hands.holders_add] at before
    rw [estate_add, Hands.holders_add, same, tickets, standing t]
    omega
  fresh t ht := standing t ▸ inv.fresh t (tickets ▸ ht)
  fits k hk := by
    have same : s'.estate F = s.estate F := estate_congr calls waits
    rw [estate_add, same] at hk
    rw [standing]
    rcases Multiset.mem_add.mp hk with hk | hk
    · exact fits k hk
    · exact inv.fits k (by rw [estate_add]; exact Multiset.mem_add.mpr (.inr hk))

/-- Calls and waits may be taken in hand and put back. -/
theorem recount (inv : Inv setup s H) (estate : s'.estate K = s.estate H) (tickets : s'.tickets = s.tickets)
    (table : s'.table = s.table) (mail : s'.mail = s.mail) (journal : s'.journal = s.journal) :
    Inv setup s' K := by
  have standing : ∀ t, s'.standing t = s.standing t := by
    intro t
    unfold Engine.standing
    rw [table, mail, journal]
  exact {
    keyed := table ▸ inv.keyed
    shut := by rw [table, journal]; exact inv.shut
    sound := fun t => standing t ▸ inv.sound t
    tally := fun t => by rw [estate, tickets, standing]; exact inv.tally t
    fresh := fun t ht => standing t ▸ inv.fresh t (tickets ▸ ht)
    fits := fun k hk => by rw [standing]; exact inv.fits k (estate ▸ hk)
    coherent := journal ▸ inv.coherent }

/-- A new ticket comes with something that decides how its call ends. -/
theorem launch {e : Entry} (made : Made) (inv : Inv setup s H)
    (estate : s'.estate K = k ::ₘ s.estate H) (tickets : s'.tickets = s.tickets + 1)
    (table : s'.table = s.table) (mail : s'.mail = s.mail) (journal : s'.journal = e :: s.journal)
    (admissible : Admissible setup s.journal e) (about : ∀ t, e.concerns t = true ↔ t = s.tickets)
    (told : ∀ a : Account, a.told e = { a with made := a.made.or (some made) })
    (own : ∀ t, k.holds t = true → t = s.tickets) (ticket : k.ticket = s.tickets)
    (fits : ∀ st : Standing, st.account = { made := some made } → k.Fits st) : Inv setup s' K := by
  have others : ∀ t, t ≠ s.tickets → s'.standing t = s.standing t := by
    intro t ht
    have : e.concerns t = false := by simpa using mt (about t).mp ht
    unfold Engine.standing
    rw [table, mail, journal, account_cons_of_not this]
  have unheard : (s.standing s.tickets).account = {} := inv.fresh _ (Nat.le_refl _)
  have account : (s'.standing s.tickets).account = { made := some made } := by
    change Switchboard.account s.tickets s'.journal = _
    rw [journal, account_cons_of_concerns ((about _).mpr rfl), told]
    rw [show Switchboard.account s.tickets s.journal = {} from unheard]
    rfl
  have sessions : (s'.standing s.tickets).sessions = (s.standing s.tickets).sessions := by
    change s'.table.sessionsOf _ = s.table.sessionsOf _
    rw [table]
  have mail' : (s'.standing s.tickets).mail = (s.standing s.tickets).mail := by
    change mailOf _ s'.mail = mailOf _ s.mail
    rw [mail]
  -- Nothing was told of a ticket that was not given out, so it has neither session nor mail.
  have empty : (s.standing s.tickets).sessions = [] ∧ (s.standing s.tickets).mail = [] := by
    have sound := inv.sound s.tickets
    unfold Standing.Sound at sound
    rw [unheard] at sound
    exact sound
  have none := inv.tally s.tickets
  rw [if_neg (Nat.lt_irrefl _)] at none
  refine ⟨table ▸ inv.keyed, ?_, ?_, ?_, ?_, ?_, ?_⟩
  · intro closed
    rw [table] at closed ⊢
    obtain ⟨shut, said⟩ := inv.shut closed
    exact ⟨shut, journal ▸ List.mem_cons_of_mem e said⟩
  · intro t
    by_cases h : t = s.tickets
    · rw [h]
      unfold Standing.Sound
      rw [account, sessions, mail']
      exact empty
    · exact others t h ▸ inv.sound t
  · intro t
    rw [estate, Hands.holders_cons, tickets]
    by_cases h : t = s.tickets
    · have : (s'.standing s.tickets).stakes = 0 := by
        unfold Standing.stakes
        rw [account, sessions, empty.1]
        rfl
      rw [h, if_pos (Nat.lt_succ_self _), this]
      split <;> omega
    · have : k.holds t = false := by simpa using mt (own t) h
      have before := inv.tally t
      rw [others t h, this, if_congr (show t < s.tickets + 1 ↔ t < s.tickets by omega) rfl rfl]
      simpa using before
  · intro t ht
    rw [tickets] at ht
    exact others t (by omega) ▸ inv.fresh t (by omega)
  · intro k' hk'
    rw [estate, Multiset.mem_cons] at hk'
    rcases hk' with rfl | hk'
    · rw [ticket]
      exact fits _ account
    have before := inv.fits k' hk'
    by_cases h : k'.ticket = s.tickets
    · -- Nothing in hand is about a ticket that was not given out, but for packets and answers.
      refine before.extend ?_ ?_
      · by_contra hholds
        have := Hands.one_le_holders hk' (t := s.tickets) (by rw [← h]; simpa using hholds)
        omega
      · rw [h, unheard]
        exact ⟨(fun hm => nomatch hm), (fun hr => nomatch hr)⟩
    · exact others _ h ▸ before
  · rw [journal]
    exact ⟨admissible, inv.coherent⟩

end Inv

end Engine
end Switchboard
