import Switchboard.Proofs.Engine.Underway
import Switchboard.Proofs.PoolBalance

/-! What is left of calls that are given up or whose requests cannot be written. Nothing on the connection is
    there for them any more, and the packets of their requests are back in the pool. A reply that had been handed
    over is not: whoever would have put it back is gone, and it stays out of the pool for good. -/

namespace Switchboard

/-- An entry says that the call with a ticket was given up, or that its request could not be written. -/
def Entry.abandons (ticket : Nat) : Entry → Bool
  | .cancelled t | .unsent t _ => t == ticket
  | _ => false

def Abandoned (J : List Entry) (ticket : Nat) : Prop := ∃ e ∈ J, e.abandons ticket = true

instance {J : List Entry} {ticket : Nat} : Decidable (Abandoned J ticket) :=
  inferInstanceAs (Decidable (∃ e ∈ J, e.abandons ticket = true))

namespace Engine

variable {setup : Setup} {shared : Bool} {s t : Engine} {H : Hands} {ticket : Nat} {c : Call}

/-! ### What is left on the connection -/

/-- Nothing on the connection is there for the call with a ticket. -/
structure Clear (s : Engine) (ticket : Nat) : Prop where
  sessions : ∀ e ∈ s.table.entries, e.2.ticket ≠ ticket
  mail : ∀ e ∈ s.mail, e.1 ≠ ticket
  calls : ∀ c ∈ s.calls, c.ticket ≠ ticket
  waits : ∀ w ∈ s.waits, w.pending.ticket ≠ ticket

theorem sessions_of_standing (none : (s.standing ticket).sessions = []) : ∀ e ∈ s.table.entries, e.2.ticket ≠ ticket := by
  intro e mem same
  have : e ∈ (s.standing ticket).sessions := SessionTable.mem_sessionsOf.mpr ⟨mem, same⟩
  rw [none] at this
  cases this

theorem mail_of_standing (none : (s.standing ticket).mail = []) : ∀ e ∈ s.mail, e.1 ≠ ticket := by
  rintro ⟨u, p⟩ mem rfl
  have : p ∈ (s.standing u).mail := mem_mailOf.mpr mem
  rw [none] at this
  cases this

/-- A reply that is kept belongs to a call that has neither failed nor ended. -/
theorem Underway.live_of_mail (run : Underway setup shared s H) {p : Parcel} (kept : (ticket, p) ∈ s.mail) :
    (s.standing ticket).account.failed = none ∧ (s.standing ticket).account.ends = [] := by
  obtain ⟨k, mem, holds⟩ := Multiset.countP_pos.mp (run.attended.mail kept)
  refine ⟨?_, (run.inv.live mem holds).1⟩
  obtain ⟨r, q, replied⟩ : ∃ r q, (s.standing ticket).account.fate = .replied r q := by
    by_contra unanswered
    have none := (run.inv.sound ticket).mail_eq_nil fun r q fate => unanswered ⟨r, q, fate⟩
    exact mail_of_standing none _ kept rfl
  have fits := run.inv.fits k mem
  -- Who waits for a reply has neither failed nor ended, and callbacks that are owed were not answered.
  cases k with
  | parcel | placed _ _ | answering _ _ => cases holds
  | calling c | sending c _ | ending c _ _ =>
    obtain rfl := beq_iff_eq.mp holds
    exact fits.2.1
  | watching w =>
    obtain rfl := beq_iff_eq.mp holds
    exact fits.1
  | promised m pending =>
    obtain rfl := beq_iff_eq.mp holds
    exact fits.2.1
  | asked u m callbacks =>
    obtain rfl := beq_iff_eq.mp holds
    exact fits.2.1
  | owed pending =>
    obtain rfl := beq_iff_eq.mp holds
    cases replied.symm.trans fits.2

theorem Underway.clear_of_abandoned (run : Underway setup shared s H) (few : s.issuer.drawn ≤ numbers)
    (abandoned : Abandoned s.journal ticket) : Clear s ticket := by
  -- What was abandoned has ended or failed, and nothing that is still there has.
  have settled : (s.standing ticket).account.failed.isSome ∨ (s.standing ticket).account.ends ≠ [] := by
    obtain ⟨e, mem, abandons⟩ := abandoned
    cases e with
    | cancelled u =>
      obtain rfl := beq_iff_eq.mp abandons
      exact .inr (List.ne_nil_of_mem (cancelled_mem_ends.mpr mem))
    | unsent u fault =>
      obtain rfl := beq_iff_eq.mp abandons
      exact .inl (failed_of_mem mem)
    | _ => cases abandons
  have live : (s.standing ticket).account.failed = none ∧ (s.standing ticket).account.ends = [] → False := by
    rintro ⟨failed, ends⟩
    rw [failed, ends] at settled
    simp at settled
  refine ⟨sessions_of_standing ((run.inv.sound ticket).sessions_eq_nil ((run.tidy few ticket).settled settled)), ?_, ?_, ?_⟩
  · rintro ⟨u, p⟩ kept rfl
    exact live (run.live_of_mail kept)
  · rintro c mem rfl
    have there : .calling c ∈ s.estate H := calling_mem_estate mem
    exact live ⟨(run.inv.fits _ there).2.1, (run.inv.live there (beq_self_eq_true _)).1⟩
  · rintro w mem rfl
    have there : .watching w ∈ s.estate H := watching_mem_estate mem
    exact live ⟨(run.inv.fits _ there).1, (run.inv.live there (beq_self_eq_true _)).1⟩

/-! ### Giving a call up -/

/-- What giving up the call with a ticket does: what was there for it is gone and everything else is as it was. No
    packet is put back, so a reply that was there for it is lost. -/
structure GivenUp (s : Engine) (ticket : Nat) (t : Engine) : Prop where
  told : .cancelled ticket ∈ t.journal
  sessions : ∀ e, e ∈ t.table.entries ↔ e ∈ s.table.entries ∧ e.2.ticket ≠ ticket
  mail : ∀ e, e ∈ t.mail ↔ e ∈ s.mail ∧ e.1 ≠ ticket
  calls : ∀ c, c ∈ t.calls ↔ c ∈ s.calls ∧ c.ticket ≠ ticket
  waits : t.waits = s.waits
  issuer : t.issuer = s.issuer
  lost : forfeits t.journal = (mailOf ticket s.mail).length + forfeits s.journal

theorem Inv.mem_strike_iff (inv : Inv setup s H) (numbered : Numbered s) {r : Packet}
    (request : (s.standing ticket).account.fate.request? = some r) (e : UInt64 × Session) :
    e ∈ (s.table.erase r.session).entries ↔ e ∈ s.table.entries ∧ e.2.ticket ≠ ticket := by
  obtain ⟨n, entry⟩ := e
  unfold SessionTable.erase
  rw [List.mem_filter, bne_iff_ne]
  -- The session under the number is the call's, and the call's session is under the number.
  refine and_congr_right fun mem => not_congr ⟨?_, ?_⟩
  · rintro rfl
    exact numbered.own inv request (inv.keyed.find_of_mem mem)
  · rintro rfl
    obtain ⟨r', fate, rfl, -⟩ := inv.found (inv.keyed.find_of_mem mem)
    rw [fate] at request
    cases request
    rfl

theorem Underway.givenUp (run : Underway setup shared s H) (few : s.issuer.drawn ≤ numbers) (mem : c ∈ s.calls) :
    ∃ t, cancelCall c.ticket s = .ok ((), t) ∧ GivenUp s c.ticket t := by
  have fits : (Token.calling c).Fits (s.standing c.ticket) := run.inv.fits _ (calling_mem_estate mem)
  have calls : ∀ c', c' ∈ s.calls.filter (fun c' => c'.ticket != c.ticket) ↔ c' ∈ s.calls ∧ c'.ticket ≠ c.ticket :=
    fun c' => by rw [List.mem_filter, bne_iff_ne]
  unfold cancelCall
  rw [bind_of_ok (takeCall_of_mem run.inv mem)]
  dsimp only
  rw [bind_of_ok ((record_eq_ok (x := ())).mpr rfl)]
  rcases phase : c.phase with _ | ⟨session, deadline⟩
  · -- Nothing was registered for it.
    have fate := fits.unregistered phase
    have sessions : (s.standing c.ticket).sessions = [] := (run.inv.sound c.ticket).sessions_eq_nil (by simp [fate])
    have mail : (s.standing c.ticket).mail = [] := (run.inv.sound c.ticket).mail_eq_nil (by simp [fate])
    have handed : (account c.ticket s.journal).handed = 0 := Account.handed_of_fate fun r p replied => by
      cases fate.symm.trans replied
    refine ⟨_, rfl, List.mem_cons_self, fun e => ?_, fun e => ?_, calls, rfl, rfl, ?_⟩
    · exact ⟨fun there => ⟨there, sessions_of_standing sessions e there⟩, And.left⟩
    · exact ⟨fun there => ⟨there, mail_of_standing mail e there⟩, And.left⟩
    · rw [show mailOf c.ticket s.mail = [] from mail]
      exact (forfeits_of_handed handed).trans (Nat.zero_add _).symm
  · obtain ⟨r, rfl, listens⟩ := fits.listens phase
    let u : Engine :=
      { s with calls := s.calls.filter fun c' => c'.ticket != c.ticket, journal := .cancelled c.ticket :: s.journal }
    obtain ⟨es, told, -⟩ := strike_journal (s := u) (n := r.session)
    refine ⟨(u.strike r.session).unmail c.ticket, ?_, ?_, ?_, fun e => ?_, calls, rfl, rfl, ?_⟩
    · dsimp only
      rw [bind_of_ok (discard_eq_ok.mpr ⟨rfl, rfl⟩), bind_of_ok (takeMail_eq_ok.mpr ⟨rfl, rfl⟩)]
      rfl
    · change _ ∈ (u.strike r.session).journal
      rw [told]
      exact List.mem_append_right es List.mem_cons_self
    · exact run.inv.mem_strike_iff (run.numbered few) listens.request?
    · exact List.mem_filter.trans (and_congr_right fun _ => bne_iff_ne)
    · have handed : (mailOf c.ticket s.mail).length = (account c.ticket s.journal).handed :=
        listens.length_mail fits.1 trivial
      rw [handed]
      exact forfeits_strike (s := u)

/-! ### What is out of the pool -/

/-- How many packets out of the pool something in hand holds. -/
def Token.packets : Token → Nat
  | .parcel | .watching _ | .promised _ _ | .owed _ => 1
  | _ => 0

theorem Rates.hand_each (k : Token) : Rates.each.hand k = k.packets := by
  cases k with
  | answering t result => rcases result with fault | _ <;> rfl
  | _ => rfl

theorem Rates.hands_each_hand (H : Hands) : Rates.each.hands H = (H.map Token.packets).sum := by
  induction H using Multiset.induction_on with
  | empty => rfl
  | cons k H ih =>
    rw [Rates.hands_cons, Multiset.map_cons, Multiset.sum_cons, Nat.cast_add, ih, Rates.hand_each]

/-- Every packet that is out of the pool is in hand, is held by callbacks, a wait or an uncollected reply, or was
    lost with a call that was abandoned. -/
theorem Underway.outstanding (run : Underway setup false s H) (few : s.issuer.drawn ≤ numbers)
    (used : setup.spawner ≠ .drop) :
    s.issuer.pool.gets = s.issuer.pool.puts + (pledges s.table.entries).length + s.waits.length + s.mail.length +
      (H.map Token.packets).sum + forfeits s.journal := by
  obtain ⟨start, reached, m⟩ := run
  have few' := m.drawn.trans few
  have books : Rates.each.books s H = 0 :=
    (m.books reached.inv (reached.numbered few') few (Rates.spared_of_used used)).trans
      (reached.books_eq_zero few' (Rates.spared_of_used used) (.inr rfl))
  have hands : Rates.each.hands (s.estate H) = (H.map Token.packets).sum + s.waits.length := by
    rw [← Multiset.add_zero H, estate_add, Rates.hands_add, Rates.hands_each_hand, Rates.hands_each, Multiset.add_zero]
  unfold Rates.books Rates.total Rates.packets at books
  rw [hands, Rates.seats_each, Rates.story_each, show Rates.each.packet = 1 from rfl] at books
  omega

/-- At every point of a run nothing is there for a call that was given up or could not be written, and a call in
    progress can be given up at any point, which ends it and touches no other. All that abandoned calls keep out of
    the pool are replies: those that had been handed over when the call was abandoned. -/
theorem abandoned_calls_forfeit_replies (run : Underway setup shared s H) (few : s.issuer.drawn ≤ numbers) :
    (∀ ticket, Abandoned s.journal ticket → Clear s ticket) ∧
    (∀ c ∈ s.calls, ∃ t, cancelCall c.ticket s = .ok ((), t) ∧ GivenUp s c.ticket t) ∧
    (shared = false → setup.spawner ≠ .drop → s.issuer.pool.gets =
      s.issuer.pool.puts + (pledges s.table.entries).length + s.waits.length + s.mail.length +
        (H.map Token.packets).sum + forfeits s.journal) := by
  refine ⟨fun _ => run.clear_of_abandoned few, fun c => run.givenUp few, ?_⟩
  rintro rfl
  exact run.outstanding few

/-! ### A run with every way to lose a reply -/

/-- A line on which each second frame is answered at once, before writing it fails. -/
def fickle : Line where
  reactions n _ :=
    if n % 2 = 0 then
      [.receive (.ok (shortReply (.ofNat (n + 1)) 11 11)) fun r =>
        { session := none, who := "line", what := "reply", sight := .outcome r }]
    else []
  result n _ := if n % 2 = 0 then .error (.stated .unknown "line broken" none) else .ok ()

/-- The request of the first call was answered while writing it failed; the second call has not collected its
    reply. -/
def wooed : Engine :=
  actAll numeric 2
    [.startCall { route := .id 7, body := .ok [1] }, .pollCall 0 0, .startCall { route := .id 7, body := .ok [2] },
      .pollCall 0 1, .receive (shortReply 2 22 22)] { line := fickle }

/-- The second call is given up, an asynchronous call fails like the first, and another call is given up before
    it is answered. -/
def jilted : Engine :=
  actAll numeric 2
    [.cancelCall 1, .callAsync { route := .id 7, body := .ok [3], timeout := some ⟨5⟩ } [],
      .startCall { route := .id 7, body := .ok [4] }, .pollCall 0 3, .cancelCall 3] wooed

theorem reachable_wooed : Reachable numeric false wooed := (Reachable.start {} {} fickle true fun _ => rfl).actAll 2 _

theorem reachable_jilted : Reachable numeric false jilted := reachable_wooed.actAll 2 _

theorem jilted_calls_forfeit_replies :
    (wooed.calls.length = 1 ∧ wooed.mail.length = 1 ∧
      ∀ c ∈ wooed.calls, ∃ t, cancelCall c.ticket wooed = .ok ((), t) ∧ GivenUp wooed c.ticket t) ∧
    (∀ ticket < 4, Clear jilted ticket) ∧ jilted.issuer.pool.gets = jilted.issuer.pool.puts + 3 := by
  obtain ⟨-, wooing, -⟩ := abandoned_calls_forfeit_replies reachable_wooed.underway (by decide +kernel)
  obtain ⟨clear, -, outstanding⟩ := abandoned_calls_forfeit_replies reachable_jilted.underway (by decide +kernel)
  have abandoned : ∀ ticket < 4, Abandoned jilted.journal ticket := by decide +kernel
  have pledges : (pledges jilted.table.entries).length = 0 := by decide +kernel
  have waits : jilted.waits.length = 0 := by decide +kernel
  have mail : jilted.mail.length = 0 := by decide +kernel
  have lost : forfeits jilted.journal = 3 := by decide +kernel
  have out := outstanding rfl (by decide)
  rw [pledges, waits, mail, lost] at out
  exact ⟨⟨by decide +kernel, by decide +kernel, wooing⟩, fun ticket few => clear ticket (abandoned ticket few), out⟩

/-- With no call left on a connection whose four calls were all abandoned, three packets were not put back. -/
theorem jilted_replies_are_out : Reachable numeric false jilted ∧ jilted.tickets = 4 ∧
    (∀ ticket < 4, Abandoned jilted.journal ticket) ∧ jilted.calls.length = 0 ∧ jilted.waits.length = 0 ∧
      jilted.issuer.pool.gets = jilted.issuer.pool.puts + 3 :=
  ⟨reachable_jilted, by decide +kernel, by decide +kernel, by decide +kernel, by decide +kernel, by decide +kernel⟩

end Engine
end Switchboard
