import Switchboard.Proofs.Engine.Preservation

/-! As long as a session listens, or a reply is kept, someone in hand waits for it. -/

namespace Switchboard
namespace Engine

variable {setup : Setup} {s s' : Engine} {t u : Nat} {H K F taken given : Hands} {n : UInt64}

theorem mem_mailOf {p : Parcel} : p ∈ mailOf t s.mail ↔ (t, p) ∈ s.mail := by
  unfold mailOf
  constructor
  · intro h
    obtain ⟨e, he, rfl⟩ := List.mem_map.mp h
    obtain ⟨hmem, hticket⟩ := List.mem_filter.mp he
    obtain rfl := beq_iff_eq.mp hticket
    exact hmem
  · intro h
    exact List.mem_map.mpr ⟨_, List.mem_filter.mpr ⟨h, beq_self_eq_true _⟩, rfl⟩

structure Attended (s : Engine) (H : Hands) : Prop where
  mail : ∀ {t p}, (t, p) ∈ s.mail → 1 ≤ (s.estate H).holders t
  sessions : ∀ {n t}, (n, Session.waiting t true) ∈ s.table.entries → 1 ≤ (s.estate H).holders t

namespace Attended

/-- Those who wait may become more. -/
theorem keep (attended : Attended s H) (holders : ∀ t, (s.estate H).holders t ≤ (s'.estate K).holders t)
    (mail : ∀ e ∈ s'.mail, e ∈ s.mail) (entries : ∀ e ∈ s'.table.entries, e ∈ s.table.entries) :
    Attended s' K where
  mail h := (attended.mail (mail _ h)).trans (holders _)
  sessions h := (attended.sessions (entries _ h)).trans (holders _)

/-- Who no longer waits leaves no listening session and no reply behind. -/
theorem quit (attended : Attended s H) (u : Nat)
    (holders : ∀ t, t ≠ u → (s.estate H).holders t ≤ (s'.estate K).holders t)
    (mail : ∀ t p, (t, p) ∈ s'.mail → t ≠ u ∧ (t, p) ∈ s.mail)
    (entries : ∀ n t, (n, Session.waiting t true) ∈ s'.table.entries →
      t ≠ u ∧ (n, Session.waiting t true) ∈ s.table.entries) : Attended s' K where
  mail h := by
    obtain ⟨other, h⟩ := mail _ _ h
    exact (attended.mail h).trans (holders _ other)
  sessions h := by
    obtain ⟨other, h⟩ := entries _ _ h
    exact (attended.sessions h).trans (holders _ other)

end Attended

/-! ### What a call leaves behind -/

/-- A ticket without mail or sessions. -/
structure Silent (s : Engine) (u : Nat) : Prop where
  mail : ∀ t p, (t, p) ∈ s.mail → t ≠ u
  sessions : ∀ n t b, (n, Session.waiting t b) ∈ s.table.entries → t ≠ u

theorem silent_of_standing (mail : (s.standing u).mail = []) (sessions : (s.standing u).sessions = []) :
    Silent s u where
  mail t p h := by
    rintro rfl
    have : p ∈ (s.standing t).mail := mem_mailOf.mpr h
    rw [mail] at this
    cases this
  sessions n t b h := by
    rintro rfl
    have : (n, Session.waiting t b) ∈ (s.standing t).sessions := SessionTable.mem_sessionsOf.mpr ⟨h, rfl⟩
    rw [sessions] at this
    cases this

theorem Inv.silent_of_unregistered (inv : Inv setup s H)
    (fate : (s.standing u).account.fate = .unregistered) : Silent s u := by
  have sound := inv.sound u
  unfold Standing.Sound at sound
  rw [fate] at sound
  exact silent_of_standing sound.2 sound.1

/-- Once the session of a request is taken out and its mail is gone, nothing is left of it. -/
theorem Inv.silent_of_strike (inv : Inv setup s H) {r : Packet}
    (request : (s.standing u).account.fate.request? = some r) : Silent ((s.strike r.session).unmail u) u where
  mail t p h := by
    obtain ⟨-, other⟩ := List.mem_filter.mp h
    simpa using other
  sessions n t b h := by
    rintro rfl
    obtain ⟨mem, other⟩ := List.mem_filter.mp h
    have mem : (n, Session.waiting t b) ∈ (s.standing t).sessions := SessionTable.mem_sessionsOf.mpr ⟨mem, rfl⟩
    have sound := inv.sound t
    unfold Standing.Sound at sound
    -- While a reply is awaited the ticket has one session, and that was taken out; later it has none.
    cases hfate : (s.standing t).account.fate with
    | awaiting r' =>
      simp only [hfate] at sound
      obtain ⟨⟨entry, sessions, -⟩, -⟩ := sound
      rw [hfate] at request
      cases request
      rw [sessions] at mem
      obtain ⟨rfl, -⟩ := Prod.mk.inj (List.mem_singleton.mp mem)
      simp at other
    | _ =>
      simp only [hfate] at sound
      rw [sound.1] at mem
      cases mem

/-! ### Every move -/

/-- What a move does not take stays in hand. -/
theorem holders_le (calls : s'.calls = s.calls) (waits : s'.waits = s.waits)
    (h : Hands.holders t taken ≤ Hands.holders t given) :
    (s.estate (taken + F)).holders t ≤ (s'.estate (given + F)).holders t := by
  have same : s'.estate F = s.estate F := estate_congr calls waits
  rw [estate_add, estate_add, Hands.holders_add, Hands.holders_add, same]
  omega

/-- Tokens of one ticket do not count for others. -/
theorem holders_of_ne {k : Token} (h : t ≠ k.ticket) : k.holds t = false := by
  cases k <;> first | rfl | exact beq_eq_false_iff_ne.mpr (Ne.symm h)

theorem holders_singleton_of_ne {k : Token} (h : t ≠ k.ticket) : Hands.holders t {k} = 0 := by
  rw [Hands.holders_singleton, holders_of_ne h]
  rfl

theorem holders_pair_of_ne {k : Token} (h : t ≠ k.ticket) : Hands.holders t {.parcel, k} = 0 := by
  rw [Multiset.insert_eq_cons, Hands.holders_cons, holders_singleton_of_ne h]
  rfl

/-- Who leaves nothing behind need not wait any longer. -/
theorem Attended.leave (attended : Attended s (taken + F)) (alone : ∀ t, t ≠ u → Hands.holders t taken = 0)
    (silent : Silent s' u) (calls : s'.calls = s.calls) (waits : s'.waits = s.waits)
    (mail : ∀ e ∈ s'.mail, e ∈ s.mail) (entries : ∀ e ∈ s'.table.entries, e ∈ s.table.entries) :
    Attended s' (given + F) := by
  refine attended.quit u (fun t ht => holders_le calls waits ?_) (fun t p h => ⟨silent.mail t p h, mail _ h⟩)
    fun n t h => ⟨silent.sessions n t true h, entries _ h⟩
  rw [alone t ht]
  exact Nat.zero_le _

theorem mem_strike {e : UInt64 × Session} (h : e ∈ (s.strike n).table.entries) : e ∈ s.table.entries :=
  List.mem_of_mem_filter h

theorem mem_unmail {e : Nat × Parcel} (h : e ∈ (s.unmail u).mail) : e ∈ s.mail := List.mem_of_mem_filter h

theorem Move.attended (m : Move setup s taken s' given) (inv : Inv setup s (taken + F))
    (attended : Attended s (taken + F)) : Attended s' (given + F) := by
  have known : ∀ {k : Token}, k ∈ taken → k.Fits (s.standing k.ticket) := fun hk =>
    inv.fits_of_mem (Multiset.mem_add.mpr (.inl hk))
  -- Tokens change hands under one ticket, something comes in for who is there, or who leaves takes everything along.
  cases m with
  | take | put | draw | contexts | load | writes | note | pass | accept | failLate | answer =>
    exact attended.keep (fun t => holders_le rfl rfl (by simp [Token.holds])) (fun _ h => h) fun _ h => h
  | beginCall | bereave | beginWait =>
    exact attended.keep (fun t => holders_le rfl rfl (by simp [Token.holds, Token.ticket])) (fun _ h => h)
      fun _ h => h
  | collect =>
    exact attended.keep (fun t => holders_le rfl rfl (by simp [Token.holds, Token.ticket])) (fun _ => mem_unmail)
      fun _ h => h
  | matchCallbacks | matchNobody =>
    exact attended.keep (fun t => holders_le rfl rfl (by simp [Token.holds])) (fun _ h => h)
      fun _ => List.mem_of_mem_filter
  | fail fault found =>
    exact attended.keep (fun t => holders_le rfl rfl (by simp [Token.holds])) (fun _ h => h)
      fun _ => mem_strike (s := s.note _)
  | close =>
    exact attended.keep (fun t => holders_le rfl rfl (Nat.zero_le _)) (fun _ h => h)
      fun _ h => absurd h List.not_mem_nil
  | takeCall found =>
    refine attended.keep (fun t => ?_) (fun _ h => h) fun _ h => h
    rw [Multiset.zero_add] at inv ⊢
    exact (congrArg (Hands.holders t) (inv.estate_takeCall found)).ge
  | takeWait found =>
    refine attended.keep (fun t => ?_) (fun _ h => h) fun _ h => h
    rw [Multiset.zero_add] at inv ⊢
    exact (congrArg (Hands.holders t) (inv.estate_takeWait found)).ge
  | keepCall c =>
    refine attended.keep (fun t => ?_) (fun _ h => h) fun _ h => h
    rw [Multiset.zero_add]
    exact (congrArg (Hands.holders t) estate_keepCall).ge
  | keepWait w =>
    refine attended.keep (fun t => ?_) (fun _ h => h) fun _ h => h
    rw [Multiset.zero_add]
    exact (congrArg (Hands.holders t) estate_keepWait).ge
  | watch timed kept =>
    rename_i m pending limit
    refine attended.keep (fun t => ?_) (fun _ h => h) fun _ h => h
    rw [estate_watch]
    exact holders_le rfl rfl (by simp [Token.holds, Token.ticket])
  | call m =>
    refine attended.keep (fun t => ?_) (fun _ h => h) fun _ h => h
    rw [estate_call, estate_add (H := {.calling _}), Hands.holders_add]
    exact Nat.le_add_left _ _
  | ask m callbacks =>
    exact attended.keep (fun t => holders_le rfl rfl (Nat.zero_le _)) (fun _ h => h) fun _ h => h
  | enrollCall phase encodes enrolls =>
    rename_i c request
    have holders : ∀ t, (s.estate ({.calling c} + F)).holders t ≤
        (estate (s.draw.enroll (.waiting c.ticket true) request) ({.sending c request.session} + F)).holders t :=
      fun t => holders_le rfl rfl (by simp [Token.holds, Token.ticket])
    refine ⟨fun h => (attended.mail h).trans (holders _), ?_⟩
    intro n t h
    rcases List.mem_append.mp h with h | h
    · exact (attended.sessions h).trans (holders _)
    · obtain ⟨-, heq⟩ := Prod.mk.inj (List.mem_singleton.mp h)
      cases heq
      exact Hands.one_le_holders (mem_estate (k := .sending c request.session) (by simp)) (beq_self_eq_true _)
  | enrollWait timed enrolls =>
    rename_i m pending
    have holders : ∀ t, (s.estate ({.parcel, .asked pending.ticket m pending.callbacks} + F)).holders t ≤
        (estate (s.draw.enroll (.waiting pending.ticket true) pending.request.toPacket)
          ({.promised m pending} + F)).holders t :=
      fun t => holders_le rfl rfl (by simp [Token.holds, Token.ticket])
    refine ⟨fun h => (attended.mail h).trans (holders _), ?_⟩
    intro n t h
    rcases List.mem_append.mp h with h | h
    · exact (attended.sessions h).trans (holders _)
    · obtain ⟨-, heq⟩ := Prod.mk.inj (List.mem_singleton.mp h)
      cases heq
      exact Hands.one_le_holders (mem_estate (k := .promised m pending) (by simp)) (beq_self_eq_true _)
  | matchWaiting response found =>
    rename_i p ticket
    have holders : ∀ t, (s.estate ({.parcel} + F)).holders t ≤
        (estate { s with
          table := s.table.erase p.session, mail := s.mail ++ [(ticket, p)]
          journal := .matched ticket p.toPacket :: s.journal } (0 + F)).holders t :=
      fun t => holders_le rfl rfl (by simp [Token.holds])
    refine ⟨?_, fun h => (attended.sessions (List.mem_of_mem_filter h)).trans (holders _)⟩
    intro t q h
    rcases List.mem_append.mp h with h | h
    · exact (attended.mail h).trans (holders _)
    · obtain ⟨rfl, rfl⟩ := Prod.mk.inj (List.mem_singleton.mp h)
      -- Who is there for the session is there for the reply.
      exact (attended.sessions (SessionTable.mem_of_find found)).trans (holders _)
  | enrollCallbacks patient enrolls =>
    rename_i m pending
    -- Nobody holds the ticket once its callbacks are in the table, and nothing was kept for it before.
    obtain ⟨-, -, -, fate⟩ := known (k := .asked pending.ticket m pending.callbacks) (by simp)
    have silent : Silent s pending.ticket := inv.silent_of_unregistered fate
    refine attended.quit pending.ticket (fun t ht => holders_le rfl rfl ?_)
      (fun t p h => ⟨silent.mail t p h, h⟩) fun n t h => ?_
    · simp [Token.holds, Token.ticket, Ne.symm ht]
    · rcases List.mem_append.mp h with h | h
      · exact ⟨silent.sessions n t true h, h⟩
      · obtain ⟨-, heq⟩ := Prod.mk.inj (List.mem_singleton.mp h)
        cases heq
  | settle pending =>
    obtain ⟨-, fate⟩ := known (k := .owed pending) (by simp)
    have sound := inv.sound pending.ticket
    unfold Standing.Sound at sound
    rw [show (s.standing pending.ticket).account.fate = _ from fate] at sound
    have silent : Silent s pending.ticket := silent_of_standing sound.2 sound.1
    exact attended.leave (fun _ => holders_pair_of_ne) ⟨silent.mail, silent.sessions⟩ rfl rfl (fun _ h => h) fun _ h => h
  | @refuseCall c _ phase _ | @cancelEarly c phase =>
    have silent : Silent s c.ticket :=
      inv.silent_of_unregistered ((known (k := .calling c) (by simp)).unregistered phase)
    exact attended.leave (fun _ => holders_singleton_of_ne) ⟨silent.mail, silent.sessions⟩ rfl rfl (fun _ h => h) fun _ h => h
  | refuse ticket m callbacks fault =>
    obtain ⟨-, -, -, fate⟩ := known (k := .asked ticket m callbacks) (by simp)
    have silent : Silent s ticket := inv.silent_of_unregistered fate
    exact attended.leave (fun _ => holders_singleton_of_ne) silent rfl rfl (fun _ h => h) fun _ h => h
  | finish c session result =>
    obtain ⟨-, -, -, -, -, -, r, request, rfl⟩ := known (k := .ending c session result) (by simp)
    have silent := inv.silent_of_strike request
    exact attended.leave (fun _ => holders_singleton_of_ne) ⟨silent.mail, silent.sessions⟩ rfl rfl (fun _ => mem_unmail)
      fun _ => mem_strike (s := s.note _)
  | failCall c session fault =>
    obtain ⟨-, -, -, -, r, rfl, listens⟩ := known (k := .sending c session) (by simp)
    have silent := inv.silent_of_strike listens.request?
    exact attended.leave (fun _ => holders_singleton_of_ne) ⟨silent.mail, silent.sessions⟩ rfl rfl (fun _ => mem_unmail)
      fun _ => mem_strike (s := (s.note _).note _)
  | expire phase held late =>
    rename_i c session deadline now limit
    obtain ⟨r, rfl, listens⟩ := (known (k := .calling c) (by simp)).listens phase
    have silent := inv.silent_of_strike listens.request?
    exact attended.leave (fun _ => holders_singleton_of_ne) ⟨silent.mail, silent.sessions⟩ rfl rfl (fun _ => mem_unmail)
      fun _ => mem_strike (s := (s.note _).note _)
  | cancel phase =>
    rename_i c session deadline
    obtain ⟨r, rfl, listens⟩ := (known (k := .calling c) (by simp)).listens phase
    have silent := inv.silent_of_strike listens.request?
    exact attended.leave (fun _ => holders_singleton_of_ne) ⟨silent.mail, silent.sessions⟩ rfl rfl (fun _ => mem_unmail)
      fun _ => mem_strike (s := s.note _)
  | failWait m pending fault =>
    obtain ⟨-, -, -, -, listens⟩ := known (k := .promised m pending) (by simp)
    have silent := inv.silent_of_strike listens.request?
    exact attended.leave (fun _ => holders_singleton_of_ne) ⟨silent.mail, silent.sessions⟩ rfl rfl (fun _ => mem_unmail)
      fun _ => mem_strike (s := s.note _)
  | collectWait found =>
    rename_i w p
    obtain ⟨-, -, -, listens⟩ := known (k := .watching w) (by simp)
    obtain ⟨fate, -⟩ := listens.handed_of_mail (lookup_eq_head?_mailOf.symm.trans found)
    have sound := inv.sound w.pending.ticket
    unfold Standing.Sound at sound
    rw [show (s.standing w.pending.ticket).account.fate = _ from fate] at sound
    have silent : Silent (s.unmail w.pending.ticket) w.pending.ticket :=
      silent_of_standing (mailOf_unmail.trans (if_pos rfl)) sound.1
    exact attended.leave (fun _ => holders_singleton_of_ne) ⟨silent.mail, silent.sessions⟩ rfl rfl (fun _ => mem_unmail)
      fun _ h => h
  | bereaveWait missing gone =>
    rename_i w
    have silent : Silent s w.pending.ticket := silent_of_standing (mail_eq_nil missing) (sessions_eq_nil gone)
    exact attended.leave (fun _ => holders_pair_of_ne) ⟨silent.mail, silent.sessions⟩ rfl rfl (fun _ h => h) fun _ h => h
  | expireWait held begun late =>
    rename_i w now deadline
    obtain ⟨-, -, -, listens⟩ := known (k := .watching w) (by simp)
    obtain ⟨-, -, mail⟩ := inv.find_of_listens listens held
    have unread : s.mail.lookup w.pending.ticket = none := by
      rw [lookup_eq_head?_mailOf, show mailOf w.pending.ticket s.mail = [] from mail]
      rfl
    have silent : Silent ((s.strike w.pending.request.session).unmail w.pending.ticket) w.pending.ticket :=
      inv.silent_of_strike listens.request?
    rw [unmail_of_lookup (s := s.strike w.pending.request.session) unread] at silent
    exact attended.leave (fun _ => holders_pair_of_ne) ⟨silent.mail, silent.sessions⟩ rfl rfl (fun _ h => h)
      fun _ => mem_strike (s := s.note _)
  | forsake dropped =>
    rename_i m pending
    refine attended.quit pending.ticket (fun t ht => holders_le rfl rfl ?_) (fun t p h => ⟨?_, mem_unmail h⟩)
      fun n t h => ?_
    · simp [Token.holds, Token.ticket, Ne.symm ht]
    · obtain ⟨-, other⟩ := List.mem_filter.mp h
      simpa using other
    · -- The session stays but no longer listens, so nobody has to be there for it.
      obtain ⟨⟨n', entry⟩, mem, heq⟩ := List.mem_map.mp h
      obtain ⟨rfl, deaf⟩ := Prod.mk.inj heq
      cases entry with
      | waiting ticket listening =>
        obtain ⟨rfl, listens⟩ := Session.waiting.inj deaf
        have other : (listening && ticket != pending.ticket) = true := listens
        obtain ⟨rfl, other⟩ := Bool.and_eq_true_iff.mp other
        exact ⟨bne_iff_ne.mp other, mem⟩
      | callback p => cases deaf

/-- Along every run someone waits for what is kept. -/
theorem Moves.attended (m : Moves setup s H s' K) (inv : Inv setup s H) (attended : Attended s H) :
    Attended s' K := by
  induction m with
  | refl => exact attended
  | tail F before last ih => exact last.attended (before.inv inv) ih

end Engine
end Switchboard
