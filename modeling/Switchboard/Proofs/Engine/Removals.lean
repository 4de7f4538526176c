import Switchboard.Proofs.Engine.Numbers
import Switchboard.Proofs.Engine.Order

/-! Why a session is taken out of the table without a response. As long as numbers are distinct, only its
    own call does this, once the call has ended, its request could not be written, or its time is over. -/

namespace Switchboard

/-- Something that is said of a call excuses taking out its session. -/
def Entry.excuses (ticket : Nat) : Entry → Bool
  | .unsent t _ | .expired t _ => t == ticket
  | e => e.finals ticket

/-- Every session that was taken out was so for a reason, and no callbacks were run because of that. -/
def Justified : List Entry → Prop
  | [] => True
  | .removed t :: earlier => (∃ e ∈ earlier, e.excuses t = true) ∧ Justified earlier
  | .delivered pending _ :: earlier =>
    (∀ r, (account pending.ticket earlier).fate ≠ .removed r) ∧ Justified earlier
  | _ :: earlier => Justified earlier

section

variable {J K : List Entry} {e : Entry} {t : Nat} {r : Packet} {setup : Setup}

theorem Justified.drop (h : Justified (K ++ J)) : Justified J := by
  induction K with
  | nil => exact h
  | cons e K ih =>
    cases e with
    | removed t => exact ih h.2
    | delivered pending p => exact ih h.2
    | _ => exact ih h

theorem Coherent.fate_of_expired {now : Nat} (coherent : Coherent setup J) (h : .expired t now ∈ J) :
    ∃ r, (account t J).fate = .expired r now := by
  obtain ⟨later, earlier, rfl⟩ := List.append_of_mem h
  obtain ⟨⟨r, fate⟩, -⟩ := coherent.admissible
  have expired : (account t (.expired t now :: earlier)).fate = .expired r now := by
    rw [account_cons_of_concerns (beq_self_eq_true _), Account.told_expired fate]
  exact ⟨r, (fate_append (by simp [expired]) (by simp [expired])).trans expired⟩

/-- A session that was taken out before anything else could end it belongs to a call that had ended, or
    whose request could not be written. -/
theorem Justified.reason (h : Justified J) (coherent : Coherent setup J)
    (fate : (account t J).fate = .removed r) :
    (∃ fault, .unsent t fault ∈ J) ∨ ∃ e ∈ J, e.finals t = true := by
  have told := told_fate J t
  rw [fate] at told
  obtain ⟨later, since, earlier, rfl, -, none⟩ := told
  obtain ⟨⟨e, he, excuses⟩, -⟩ := h.drop
  have kept : ∀ {e}, e ∈ since ++ .registered t r :: earlier →
      e ∈ later ++ .removed t :: (since ++ .registered t r :: earlier) := fun he =>
    List.mem_append_right later (List.mem_cons_of_mem _ he)
  cases e with
  | unsent u fault =>
    obtain rfl : u = t := beq_iff_eq.mp excuses
    exact .inl ⟨fault, kept he⟩
  | expired u now =>
    -- Time that ran out before would have ended the session itself.
    obtain rfl : u = t := beq_iff_eq.mp excuses
    have waits : Awaits (since ++ .registered u r :: earlier) u r := ⟨since, earlier, rfl, none⟩
    obtain ⟨r', fate'⟩ := coherent.drop.2.fate_of_expired he
    cases (waits.fate coherent.drop.2).symm.trans fate'
  | _ => exact .inr ⟨_, kept he, excuses⟩

end

namespace Engine

variable {setup : Setup} {s s' : Engine} {H K F taken given : Hands} {n : UInt64} {t : Nat}

theorem justified_strike (h : Justified s.journal)
    (excused : ∀ entry, s.table.find n = some entry → ∃ e ∈ s.journal, e.excuses entry.ticket = true) :
    Justified (s.strike n).journal := by
  cases found : s.table.find n with
  | none => rwa [strike_of_find found]
  | some entry =>
    rw [strike_of_some found]
    exact ⟨excused entry found, h⟩

/-- Nobody waits for a reply whose session was taken out. -/
theorem watching_not_removed {w : Wait} (inv : Inv setup s H) (h : Justified s.journal)
    (hk : .watching w ∈ s.estate H) (r : Packet) : (account w.pending.ticket s.journal).fate ≠ .removed r := by
  intro fate
  have holds : (Token.watching w).holds w.pending.ticket = true := beq_self_eq_true _
  obtain ⟨failed, -⟩ : (Token.watching w).Fits (s.standing w.pending.ticket) := inv.fits _ hk
  obtain ⟨ended, -⟩ := inv.live hk holds
  rcases h.reason inv.coherent fate with ⟨fault, unsent⟩ | ⟨e, he, finals⟩
  · have said := failed_of_mem unsent
    rw [show (account w.pending.ticket s.journal).failed = none from failed] at said
    cases said
  · have ended : (account w.pending.ticket s.journal).ends = [] := ended
    rw [ends_eq_filter, List.filter_eq_nil_iff] at ended
    exact ended e he finals

theorem Move.justified (m : Move setup s taken s' given) (inv : Inv setup s (taken + F)) (numbered : Numbered s)
    (h : Justified s.journal) : Justified s'.journal := by
  have known : ∀ {k : Token}, k ∈ taken → k.Fits (s.standing k.ticket) := fun hk =>
    inv.fits_of_mem (Multiset.mem_add.mpr (.inl hk))
  cases m with
  | note plain =>
    rename_i e
    cases e <;> first | exact plain.elim | exact h
  | matchCallbacks response found =>
    rename_i p pending
    -- The reply came first, so the session was not taken out.
    obtain ⟨r, fate, -⟩ := inv.found found
    refine ⟨fun r' removed => ?_, h⟩
    rw [Inv.told_matched (t := pending.ticket) fate] at removed
    cases removed
  | settle pending =>
    obtain ⟨-, fate⟩ := known (k := .owed pending) (by simp)
    refine ⟨fun r removed => ?_, h⟩
    cases fate.symm.trans removed
  | collectWait found =>
    rename_i w p
    exact ⟨watching_not_removed (s := s) inv h (mem_estate (by simp)), h⟩
  | bereaveWait missing gone =>
    rename_i w
    exact ⟨watching_not_removed inv h (mem_estate (by simp)), h⟩
  | finish c session result =>
    -- Numbers are drawn once: what is found under the number of a request belongs to its call.
    obtain ⟨-, -, -, -, -, -, r, request, rfl⟩ := known (k := .ending c session result) (by simp)
    refine justified_strike (s := s.note _) h fun entry found => ⟨_, List.mem_cons_self, ?_⟩
    have own : entry.ticket = c.ticket := numbered.own inv request found
    simp [Entry.excuses, Entry.finals, Entry.completes, own]
  | failCall c session fault =>
    obtain ⟨-, -, -, -, r, rfl, listens⟩ := known (k := .sending c session) (by simp)
    refine justified_strike (s := (s.note _).note _) h fun entry found => ⟨_, List.mem_cons_self, ?_⟩
    have own : entry.ticket = c.ticket := numbered.own inv listens.request? found
    simp [Entry.excuses, Entry.finals, Entry.completes, own]
  | expire phase held late =>
    rename_i c session deadline now limit
    obtain ⟨r, rfl, listens⟩ := (known (k := .calling c) (by simp)).listens phase
    refine justified_strike (s := (s.note _).note _) h fun entry found => ⟨_, List.mem_cons_self, ?_⟩
    have own : entry.ticket = c.ticket := numbered.own inv listens.request? found
    simp [Entry.excuses, Entry.finals, Entry.completes, own]
  | cancel phase =>
    rename_i c session deadline
    obtain ⟨r, rfl, listens⟩ := (known (k := .calling c) (by simp)).listens phase
    refine justified_strike (s := s.note _) h fun entry found => ⟨_, List.mem_cons_self, ?_⟩
    have own : entry.ticket = c.ticket := numbered.own inv listens.request? found
    simp [Entry.excuses, Entry.finals, Entry.completes, own]
  | expireWait held begun late =>
    rename_i w now deadline
    obtain ⟨-, -, -, listens⟩ := known (k := .watching w) (by simp)
    obtain ⟨fate, -⟩ := inv.find_of_listens listens held
    have expired : (account w.pending.ticket (.expired w.pending.ticket now :: s.journal)).fate =
        .expired w.pending.request.toPacket now := by
      rw [account_cons_of_concerns (beq_self_eq_true _)]
      exact congrArg Account.fate (Account.told_expired fate)
    obtain ⟨es, hes, -⟩ := strike_journal (s := s.note (.expired w.pending.ticket now))
      (n := w.pending.request.session)
    -- The session ended with its time, and that it is taken out changes nothing about that.
    refine ⟨fun r removed => ?_, ?_⟩
    · rw [hes] at removed
      change (account w.pending.ticket (es ++ .expired w.pending.ticket now :: s.journal)).fate = _ at removed
      rw [fate_append (by simp [expired]) (by simp [expired]), expired] at removed
      cases removed
    refine justified_strike (s := s.note (.expired w.pending.ticket now)) h fun entry found =>
      ⟨_, List.mem_cons_self, ?_⟩
    have own : entry.ticket = w.pending.ticket := numbered.own inv listens.request? found
    simp [Entry.excuses, own]
  | fail fault found =>
    rename_i m pending entry
    obtain ⟨-, -, request⟩ := known (k := .placed m pending) (by simp)
    refine justified_strike (s := s.note _) h fun entry found => ⟨_, List.mem_cons_self, ?_⟩
    have own : entry.ticket = pending.ticket := numbered.own inv request found
    simp [Entry.excuses, own]
  | failWait m pending fault =>
    obtain ⟨-, -, -, -, listens⟩ := known (k := .promised m pending) (by simp)
    refine justified_strike (s := s.note _) h fun entry found => ⟨_, List.mem_cons_self, ?_⟩
    have own : entry.ticket = pending.ticket := numbered.own inv listens.request? found
    simp [Entry.excuses, own]
  | _ => exact h

end Engine
end Switchboard
