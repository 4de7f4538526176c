import Switchboard.Proofs.Engine.Endings

/-! The invariant along every move, and along every run of moves. -/

namespace Switchboard
namespace Engine

variable {setup : Setup} {s s' : Engine} {t u : Nat} {H K F : Hands}

/-! ### Calls and waits in hand -/

theorem perm_of_find {α : Type} (ticket : α → Nat) {l : List α} {a : α} {n : Nat}
    (single : l.countP (fun b => ticket b == n) ≤ 1) (found : l.find? (fun b => ticket b == n) = some a) :
    l.Perm (a :: l.filter fun b => ticket b != n) := by
  obtain ⟨hticket, before, after, rfl, hbefore⟩ := List.find?_eq_some_iff_append.mp found
  have others : ∀ b ∈ before ++ after, (ticket b != n) = true := by
    intro b hb
    rw [List.mem_append] at hb
    rcases hb with hb | hb
    · simpa using hbefore b hb
    · rw [List.countP_append, List.countP_cons, if_pos hticket] at single
      have none : after.countP (fun b => ticket b == n) = 0 := by omega
      simpa using List.countP_eq_zero.mp none b hb
  have kept : (before ++ a :: after).filter (fun b => ticket b != n) = before ++ after := by
    rw [List.filter_append, List.filter_cons_of_neg (by simpa using hticket), ← List.filter_append]
    exact List.filter_eq_self.mpr others
  rw [kept]
  exact List.perm_middle

theorem find_of_mem {α : Type} (ticket : α → Nat) {l : List α} {a : α}
    (single : l.countP (fun b => ticket b == ticket a) ≤ 1) (h : a ∈ l) :
    l.find? (fun b => ticket b == ticket a) = some a := by
  cases found : l.find? (fun b => ticket b == ticket a) with
  | none =>
    have := List.find?_eq_none.mp found a h
    simp at this
  | some b =>
    rcases List.mem_cons.mp ((perm_of_find ticket single found).mem_iff.mp h) with rfl | other
    · rfl
    · have := (List.mem_filter.mp other).2
      simp at this

theorem estate_keepCall {c : Call} :
    estate { s with calls := s.calls ++ [c] } F = s.estate ({.calling c} + F) := by
  rw [estate_add]
  unfold estate
  dsimp only
  rw [List.map_append, ← Multiset.coe_add, Multiset.add_comm (Multiset.ofList _), ← Multiset.add_assoc,
    ← Multiset.add_assoc, ← Multiset.add_assoc, Multiset.add_comm F]
  rfl

theorem estate_keepWait {w : Wait} :
    estate { s with waits := s.waits ++ [w] } F = s.estate ({.watching w} + F) := by
  rw [estate_add]
  unfold estate
  dsimp only
  rw [List.map_append, ← Multiset.coe_add, ← Multiset.add_assoc, Multiset.add_comm]
  rfl

/-- A call that is made is in progress at once. -/
theorem estate_call {m : Outbound} :
    estate
      { s with
        tickets := s.tickets + 1, calls := s.calls ++ [{ ticket := s.tickets, message := m }]
        journal := .called s.tickets m :: s.journal } F =
      s.estate ({.calling { ticket := s.tickets, message := m }} + F) := estate_keepCall

/-- A wait that is taken up is in progress beside what else is in hand. -/
theorem estate_watch {pending : Pending} {limit : Duration} :
    estate { s with waits := s.waits ++ [{ pending, limit }] } (H + F) =
      s.estate ({.watching { pending, limit }} + H + F) := by
  rw [Multiset.add_assoc]
  exact estate_keepWait

namespace Inv

/-- A ticket has one call in progress at most. -/
theorem single_call (inv : Inv setup s H) (t : Nat) : s.calls.countP (fun c => c.ticket == t) ≤ 1 := by
  have tally := inv.tally t
  unfold estate at tally
  have counted : Hands.holders t (Multiset.ofList (s.calls.map Token.calling)) =
      s.calls.countP fun c => c.ticket == t := Hands.holders_map ..
  rw [Hands.holders_add, Hands.holders_add, counted] at tally
  split at tally <;> omega

/-- A ticket has one wait in progress at most. -/
theorem single_wait (inv : Inv setup s H) (t : Nat) : s.waits.countP (fun w => w.pending.ticket == t) ≤ 1 := by
  have tally := inv.tally t
  unfold estate at tally
  have counted : Hands.holders t (Multiset.ofList (s.waits.map Token.watching)) =
      s.waits.countP fun w => w.pending.ticket == t := Hands.holders_map ..
  rw [Hands.holders_add, Hands.holders_add, counted] at tally
  split at tally <;> omega

theorem estate_takeCall {c : Call} (inv : Inv setup s H)
    (found : s.calls.find? (fun c => c.ticket == t) = some c) :
    estate { s with calls := s.calls.filter fun c => c.ticket != t } ({.calling c} + H) = s.estate H := by
  have perm := (perm_of_find Call.ticket (inv.single_call t) found).map Token.calling
  rw [estate_add]
  unfold estate
  rw [Multiset.coe_eq_coe.mpr perm, List.map_cons, ← Multiset.cons_coe, ← Multiset.add_assoc,
    ← Multiset.add_assoc, Multiset.add_cons, Multiset.singleton_add, Multiset.cons_add]

theorem estate_takeWait {w : Wait} (inv : Inv setup s H)
    (found : s.waits.find? (fun w => w.pending.ticket == t) = some w) :
    estate { s with waits := s.waits.filter fun w => w.pending.ticket != t } ({.watching w} + H) = s.estate H := by
  have perm := (perm_of_find (fun w : Wait => w.pending.ticket) (inv.single_wait t) found).map Token.watching
  rw [estate_add]
  unfold estate
  rw [Multiset.coe_eq_coe.mpr perm, List.map_cons, ← Multiset.cons_coe, Multiset.add_cons,
    Multiset.singleton_add]

theorem takeCall {c : Call} (inv : Inv setup s H)
    (found : s.calls.find? (fun c => c.ticket == t) = some c) :
    Inv setup { s with calls := s.calls.filter fun c => c.ticket != t } ({.calling c} + H) :=
  inv.recount (inv.estate_takeCall found) rfl rfl rfl rfl

theorem takeWait {w : Wait} (inv : Inv setup s H)
    (found : s.waits.find? (fun w => w.pending.ticket == t) = some w) :
    Inv setup { s with waits := s.waits.filter fun w => w.pending.ticket != t } ({.watching w} + H) :=
  inv.recount (inv.estate_takeWait found) rfl rfl rfl rfl

theorem keepCall {c : Call} (inv : Inv setup s ({.calling c} + F)) :
    Inv setup { s with calls := s.calls ++ [c] } F := inv.recount estate_keepCall rfl rfl rfl rfl

theorem keepWait {w : Wait} (inv : Inv setup s ({.watching w} + F)) :
    Inv setup { s with waits := s.waits ++ [w] } F := inv.recount estate_keepWait rfl rfl rfl rfl

/-- Someone takes up the wait for the reply to a request that was written. -/
theorem watch {m : Outbound} {pending : Pending} {limit : Duration} {r : Except Fault Unit}
    (inv : Inv setup s ({.promised m pending} + F)) (timed : m.timeout = some limit) :
    Inv setup { s with waits := s.waits ++ [{ pending, limit }] } ({.answering pending.ticket r} + F) := by
  obtain ⟨made, failed, began, -, listens⟩ := inv.fits_of_mem (k := .promised m pending) (by simp)
  have watched : Inv setup s ({.watching { pending, limit }, .answering pending.ticket r} + F) := by
    refine inv.still rfl rfl rfl inv.keyed inv.shut inv.coherent (fun _ => rfl) ?_ ?_
    · intro t
      simp [Token.holds, Token.ticket]
    · intro k hk
      rcases Multiset.mem_cons.mp hk with rfl | hk
      · refine ⟨failed, ?_, ⟨m, made, timed⟩, listens⟩
        change _ = Option.map _ (s.standing pending.ticket).account.began
        rw [show (s.standing pending.ticket).account.began = none from began]
        rfl
      · rw [Multiset.mem_singleton.mp hk]
        trivial
  exact watched.recount estate_watch rfl rfl rfl rfl

theorem call (inv : Inv setup s H) (m : Outbound) :
    Inv setup
      { s with
        tickets := s.tickets + 1, calls := s.calls ++ [{ ticket := s.tickets, message := m }]
        journal := .called s.tickets m :: s.journal } H := by
  -- The new call is put among the calls in progress, which amounts to having it in hand.
  refine inv.launch (k := .calling { ticket := s.tickets, message := m }) (.call m) ?_ rfl rfl rfl rfl
    (congrArg Account.made (inv.fresh _ (Nat.le_refl _))) ?_ (fun _ => rfl) ?_ rfl ?_
  · rw [← Multiset.singleton_add, ← estate_add]
    exact estate_call
  · intro t
    exact beq_iff_eq.trans eq_comm
  · intro t ht
    exact (beq_iff_eq.mp ht).symm
  · intro st hst
    simp [Token.Fits, hst]

theorem ask (inv : Inv setup s H) (m : Outbound) (callbacks : List Program) :
    Inv setup
      { s with tickets := s.tickets + 1, journal := .calledAsync s.tickets m callbacks :: s.journal }
      ({.asked s.tickets m callbacks} + H) := by
  refine inv.launch (k := .asked s.tickets m callbacks) (.async m callbacks) ?_ rfl rfl rfl rfl
    (congrArg Account.made (inv.fresh _ (Nat.le_refl _))) ?_ (fun _ => rfl) ?_ rfl ?_
  · rw [estate_add, Multiset.singleton_add]
    rfl
  · intro t
    exact beq_iff_eq.trans eq_comm
  · intro t ht
    exact (beq_iff_eq.mp ht).symm
  · intro st hst
    simp [Token.Fits, hst]

/-- A move among the packets, the contexts, the numbers, the load and the line. -/
theorem aside {taken given : Hands} (inv : Inv setup s (taken + F)) (table : s'.table = s.table)
    (mail : s'.mail = s.mail) (journal : s'.journal = s.journal) (calls : s'.calls = s.calls)
    (waits : s'.waits = s.waits) (tickets : s'.tickets = s.tickets)
    (parcels : ∀ k ∈ given, k = .parcel) : Inv setup s' (given + F) := by
  refine inv.still calls waits tickets (table ▸ inv.keyed) ?_ (journal ▸ inv.coherent) ?_ ?_ ?_
  · rw [table, journal]
    exact inv.shut
  · intro t
    unfold Engine.standing
    rw [table, mail, journal]
  · intro t
    rw [Hands.holders_eq_zero fun k hk => by rw [parcels k hk]; rfl]
    exact Nat.zero_le _
  · intro k hk
    rw [parcels k hk]
    trivial

/-- A call ends, and takes its session and its mail with it. -/
theorem finish {c : Call} {session : UInt64} {result : Except Fault Bytes}
    (inv : Inv setup s ({.ending c session result} + F)) :
    Inv setup (((s.note (.finished c.ticket result)).strike session).unmail c.ticket) (0 + F) := by
  have alone := inv.unheld (u := c.ticket) (Nat.le_add_right_of_le (by simp [Token.holds, Token.ticket]))
  refine inv.endCall.leave session ?_
  rw [Multiset.zero_add]
  exact Hands.holders_eq_zero alone

theorem failCallFinally {c : Call} {session : UInt64} (fault : Fault)
    (inv : Inv setup s ({.sending c session} + F)) :
    Inv setup ((((s.note (.unsent c.ticket fault)).note (.finished c.ticket (.error fault))).strike session).unmail
      c.ticket) (0 + F) := by
  have alone := inv.unheld (u := c.ticket) (Nat.le_add_right_of_le (by simp [Token.holds, Token.ticket]))
  refine (inv.failCall fault).leave session ?_
  rw [Multiset.zero_add]
  exact Hands.holders_eq_zero alone

theorem cancel {c : Call} (session : UInt64) (inv : Inv setup s ({.calling c} + F)) :
    Inv setup (((s.note (.cancelled c.ticket)).strike session).unmail c.ticket) (0 + F) := by
  have alone := inv.unheld (u := c.ticket) (Nat.le_add_right_of_le (by simp [Token.holds, Token.ticket]))
  refine inv.cancelEarly.leave session ?_
  rw [Multiset.zero_add]
  exact Hands.holders_eq_zero alone

theorem failWait {m : Outbound} {pending : Pending} (fault : Fault)
    (inv : Inv setup s ({.promised m pending} + F)) :
    Inv setup (((s.note (.unsent pending.ticket fault)).strike pending.request.session).unmail pending.ticket)
      ({.parcel, .answering pending.ticket (.error fault)} + F) := by
  have alone := inv.unheld (u := pending.ticket) (Nat.le_add_right_of_le (by simp [Token.holds, Token.ticket]))
  refine (inv.unsentWait fault).leave pending.request.session ?_
  rw [estate_add, Hands.holders_add]
  have : (estate (s.note (.unsent pending.ticket fault)) F).holders pending.ticket = 0 :=
    Hands.holders_eq_zero alone
  rw [this]
  simp [Token.holds]

theorem fail {m : Outbound} {pending : Pending} (fault : Fault) (entry : Session)
    (inv : Inv setup s ({.placed m pending} + F)) :
    Inv setup ((s.note (.unsent pending.ticket fault)).strike pending.request.session)
      (orphans entry + {.answering pending.ticket (.error fault)} + F) := by
  -- Who takes the callbacks out of the table holds nothing: they are not run, and their packet goes back.
  have noted : Inv setup (s.note (.unsent pending.ticket fault))
      (orphans entry + {.answering pending.ticket (.error fault)} + F) := by
    refine inv.unsent fault ?_ ?_
    · cases entry <;> simp [orphans, Token.holds]
    · cases entry <;> simp [orphans, Token.Fits]
  exact noted.strike _

end Inv

/-- Every move preserves the invariant. -/
theorem Move.inv {taken given : Hands} (m : Move setup s taken s' given) (inv : Inv setup s (taken + F)) :
    Inv setup s' (given + F) := by
  cases m with
  | take | put | draw | contexts | load | writes => exact inv.aside rfl rfl rfl rfl rfl rfl (by simp)
  | note plain =>
    rename_i e
    cases e <;> first | exact plain.elim | exact inv.note (fun _ => rfl) plain
  | call m => simpa using inv.call m
  | ask m callbacks => simpa using (Multiset.zero_add F ▸ inv).ask m callbacks
  | takeCall found => exact (Multiset.zero_add F ▸ inv).takeCall found
  | keepCall c => exact (Multiset.zero_add F).symm ▸ inv.keepCall
  | takeWait found => exact (Multiset.zero_add F ▸ inv).takeWait found
  | keepWait w => exact (Multiset.zero_add F).symm ▸ inv.keepWait
  | enrollCall phase encodes enrolls => exact inv.enrollCall phase encodes enrolls
  | enrollCallbacks patient enrolls => exact inv.enrollCallbacks patient enrolls
  | enrollWait timed enrolls => exact inv.enrollWait timed enrolls
  | matchCallbacks response found => exact inv.matchCallbacks response found
  | matchWaiting response found => exact inv.matchWaiting response found
  | matchNobody response found => exact inv.matchNobody response found
  | pass response missing =>
    exact inv.note (fun _ => rfl) ⟨response, fun u r fate => inv.missing missing fate⟩
  | close => exact (Multiset.zero_add F ▸ inv).close
  | settle pending => exact inv.settle
  | refuseCall phase reason => exact inv.refuseCall phase reason
  | beginCall c session now => exact inv.beginCall now
  | failCall c session fault => exact inv.failCallFinally fault
  | collect phase found => exact inv.collect phase found
  | bereave phase missing gone => exact inv.bereave phase missing gone
  | expire phase held late => exact inv.expire phase held late
  | finish c session result => exact inv.finish
  | cancelEarly phase => exact inv.cancelEarly
  | cancel phase => exact inv.cancel _
  | beginWait now fresh => exact inv.beginWait now fresh
  | collectWait found => exact inv.collectWait found
  | bereaveWait missing gone => exact inv.bereaveWait missing gone
  | expireWait held begun late => exact inv.expireWait held begun late
  | refuse ticket m callbacks fault => exact inv.refuse
  | accept m pending => exact inv.accept
  | failLate fault missing => exact inv.unsent fault (by simp [Token.holds]) (by simp [Token.Fits])
  | fail fault found => exact inv.fail fault _
  | watch timed taken => exact inv.watch timed
  | forsake dropped => exact inv.forsake
  | failWait m pending fault => exact inv.failWait fault
  | answer ticket result => exact inv.answer

theorem Moves.inv (m : Moves setup s H s' K) (inv : Inv setup s H) : Inv setup s' K := by
  induction m with
  | refl => exact inv
  | tail F _ last ih => exact last.inv ih

end Engine
end Switchboard
