import Switchboard.Proofs.Engine.Arrivals

/-! Calls and waits as moves, and with them everything that can be done with a connection: whatever is
    done, nothing stays in hand. -/

namespace Switchboard
namespace Engine

variable {setup : Setup} {inner : Inner} {s t : Engine}

/-! ### Calls -/

theorem startCall_moves {m : Outbound} {n : Nat} (h : startCall m s = .ok (n, t)) (F : Hands) :
    Moves setup s F t F := by
  unfold startCall at h
  obtain ⟨ticket, u, hopen, h⟩ := bind_eq_ok.mp h
  obtain ⟨rfl, rfl⟩ := openTicket_eq_ok.mp hopen
  obtain ⟨_, v, hrec, h⟩ := bind_eq_ok.mp h
  obtain rfl := record_eq_ok.mp hrec
  obtain ⟨_, w, hcalls, h⟩ := bind_eq_ok.mp h
  obtain rfl := modify_eq_ok.mp hcalls
  obtain ⟨-, rfl⟩ := pure_eq_ok.mp h
  have called := (Move.call m : Move setup s _ _ _).moves F
  rw [Multiset.zero_add] at called
  exact called

theorem takeCall_moves (setup : Setup) {ticket : Nat} {found : Option Call} (h : takeCall ticket s = .ok (found, t))
    (F : Hands) :
    (found = none ∧ Moves setup s F t F) ∨
    ∃ c, found = some c ∧ c.ticket = ticket ∧ Moves setup s F t (.calling c ::ₘ F) := by
  obtain ⟨hfound, rfl⟩ := Prod.mk.injEq .. ▸ modifyGet_eq_ok.mp h
  cases found with
  | none =>
    refine .inl ⟨rfl, ?_⟩
    have : s.calls.filter (fun c => c.ticket != ticket) = s.calls := by
      rw [List.find?_eq_none] at hfound
      exact List.filter_eq_self.mpr fun c hc => by simpa using hfound c hc
    rw [this]
    exact .refl
  | some c =>
    have hticket : c.ticket = ticket := by simpa using List.find?_some hfound
    have taken := (Move.takeCall hfound : Move setup s _ _ _).moves F
    rw [Multiset.zero_add, Multiset.singleton_add] at taken
    exact .inr ⟨c, rfl, hticket, taken⟩

theorem finish_eq_ok {ticket : Nat} {result : Except Fault Bytes} {r : Option (Except Fault Bytes)}
    (h : finish ticket result s = .ok (r, t)) : r = some result ∧ t = s.note (.finished ticket result) := by
  obtain ⟨_, u, hrec, h⟩ := bind_eq_ok.mp h
  obtain rfl := record_eq_ok.mp hrec
  obtain ⟨rfl, rfl⟩ := pure_eq_ok.mp h
  exact ⟨rfl, rfl⟩

theorem finishSession_eq_ok {ticket : Nat} {session : UInt64} {result : Except Fault Bytes}
    {r : Option (Except Fault Bytes)} (h : finishSession ticket session result s = .ok (r, t)) :
    r = some result ∧ t = ((s.note (.finished ticket result)).strike session).unmail ticket := by
  obtain ⟨r', u, hfinish, h⟩ := bind_eq_ok.mp h
  obtain ⟨rfl, rfl⟩ := finish_eq_ok hfinish
  obtain ⟨_, v, hdiscard, h⟩ := bind_eq_ok.mp h
  obtain ⟨-, rfl⟩ := discard_eq_ok.mp hdiscard
  obtain ⟨_, w, hmail, h⟩ := bind_eq_ok.mp h
  obtain ⟨-, rfl⟩ := takeMail_eq_ok.mp hmail
  obtain ⟨rfl, rfl⟩ := pure_eq_ok.mp h
  exact ⟨rfl, rfl⟩

theorem finishSession_moves {c : Call} {session : UInt64} {result : Except Fault Bytes}
    {r : Option (Except Fault Bytes)} (h : finishSession c.ticket session result s = .ok (r, t)) (F : Hands) :
    Moves setup s (.ending c session result ::ₘ F) t F := by
  obtain ⟨-, rfl⟩ := finishSession_eq_ok h
  have finished := (Move.finish c session result : Move setup s _ _ _).moves F
  rw [Multiset.singleton_add, Multiset.zero_add] at finished
  exact finished

/-- What decides a call that waits: a reply, its session gone without one, or the end of its time, in
    this order. -/
theorem awaitReply_moves {now : Nat} {c : Call} {session : UInt64} {deadline : Option (Nat × Duration)}
    {r : Option (Except Fault Bytes)} (h : awaitReply now c session deadline s = .ok (r, t)) (F : Hands) :
    Moves setup s (.calling { c with phase := .waiting session deadline } ::ₘ F) t F := by
  unfold awaitReply at h
  obtain ⟨reply, u, hmail, h⟩ := bind_eq_ok.mp h
  obtain ⟨hreply, rfl⟩ := takeMail_eq_ok.mp hmail
  cases reply with
  | some p =>
    obtain ⟨_, v, hput, h⟩ := bind_eq_ok.mp h
    obtain rfl := putParcel_eq_ok.mp hput
    have collected := (Move.collect (c := { c with phase := .waiting session deadline }) rfl hreply :
      Move setup s _ _ _).moves F
    simp only [Multiset.insert_eq_cons, Multiset.cons_add, Multiset.singleton_add] at collected
    exact (collected.trans (moves_put p _)).trans
      (finishSession_moves (c := { c with phase := .waiting session deadline }) h F)
  | none =>
    -- Looking for a reply where there is none changes nothing.
    rw [unmail_of_lookup hreply] at h
    obtain ⟨_, _, hget, h⟩ := bind_eq_ok.mp h
    obtain ⟨rfl, rfl⟩ := get_eq_ok.mp hget
    split at h
    · rename_i gone
      have bereaved := (Move.bereave (c := { c with phase := .waiting session deadline }) rfl hreply
        (by simpa using gone) : Move setup s _ _ _).moves F
      simp only [Multiset.singleton_add] at bereaved
      exact bereaved.trans (finishSession_moves (c := { c with phase := .waiting session deadline }) h F)
    · rename_i held
      rcases hover : passed now deadline with _ | limit
      · rw [hover] at h
        obtain ⟨_, v, hkeep, h⟩ := bind_eq_ok.mp h
        obtain rfl := modify_eq_ok.mp hkeep
        obtain ⟨-, rfl⟩ := pure_eq_ok.mp h
        have kept := (Move.keepCall { c with phase := .waiting session deadline } : Move setup s _ _ _).moves F
        rw [Multiset.singleton_add, Multiset.zero_add] at kept
        exact kept
      · rw [hover] at h
        obtain ⟨_, v, hrec, h⟩ := bind_eq_ok.mp h
        obtain rfl := record_eq_ok.mp hrec
        obtain ⟨-, rfl⟩ := finishSession_eq_ok h
        have expired := (Move.expire (c := { c with phase := .waiting session deadline }) rfl
          (by simpa using held) hover : Move setup s _ _ _).moves F
        rw [Multiset.singleton_add, Multiset.zero_add] at expired
        exact expired

theorem refuseCall_moves {c : Call} {fault : Fault} (phase : c.phase = .created)
    (reason : c.message.body = .error fault ∨
      c.message.Encodes ∧ s.table.closed = true ∧ fault = .notSent c.message.route) (p : Parcel) (F : Hands) :
    Moves setup s (.parcel ::ₘ .calling c ::ₘ F)
      (note (.finished c.ticket (.error fault)) { s with issuer := s.issuer.put p }) F := by
  refine (moves_put p _).trans ?_
  have refused := (Move.refuseCall phase reason : Move setup { s with issuer := s.issuer.put p } _ _ _).moves F
  simp only [Multiset.singleton_add, Multiset.zero_add] at refused
  exact refused

/-- A call that is polled for the first time is refused before it is registered, fails when its request
    cannot be written, or begins to wait. -/
theorem sendCall_moves (sound : inner.Sound setup) {now : Nat} {c : Call} (phase : c.phase = .created)
    {r : Option (Except Fault Bytes)} (h : sendCall setup inner now c s = .ok (r, t)) (F : Hands) :
    Moves setup s (.calling c ::ₘ F) t F := by
  unfold sendCall at h
  obtain ⟨p, u, hissue, h⟩ := bind_eq_ok.mp h
  obtain ⟨-, number, rfl⟩ := issue_eq_ok hissue
  refine (moves_take _).trans ?_
  rcases hload : p.load (c.message.body.map .value) with ⟨q, fault | _⟩
  · simp only [hload] at h
    obtain ⟨_, v, hput, h⟩ := bind_eq_ok.mp h
    obtain rfl := putParcel_eq_ok.mp hput
    obtain ⟨-, rfl⟩ := finish_eq_ok h
    exact (moves_draw _).trans
      (refuseCall_moves phase (.inl (Outbound.body_of_map (Parcel.load_eq_error hload))) q F)
  · simp only [hload] at h
    obtain ⟨⟨content, hcontent⟩, hsession⟩ := Parcel.load_eq_ok hload
    have encodes : c.message.Encodes := Outbound.encodes_of_map hcontent
    obtain ⟨answer, v, hregister, h⟩ := bind_eq_ok.mp h
    rcases register_cases hregister with ⟨rfl, closed, rfl⟩ | ⟨rfl, isOpen, free, rfl⟩
    · obtain ⟨_, w, hput, h⟩ := bind_eq_ok.mp h
      obtain rfl := putParcel_eq_ok.mp hput
      obtain ⟨-, rfl⟩ := finish_eq_ok h
      exact (moves_draw _).trans (refuseCall_moves phase (.inr ⟨encodes, closed, rfl⟩) q F)
    · obtain ⟨⟨q', result⟩, w, hsend, h⟩ := bind_eq_ok.mp h
      obtain ⟨_, x, hput, h⟩ := bind_eq_ok.mp h
      obtain rfl := putParcel_eq_ok.mp hput
      have enrolled := (Move.enrollCall phase encodes ⟨isOpen, free, hsession.trans number⟩ :
        Move setup { s with issuer := s.issuer.get.2 } _ _ _).moves (.parcel ::ₘ F)
      simp only [Multiset.singleton_add] at enrolled
      -- The packet of the request stays in hand beside the call until the writing is over.
      rw [Multiset.cons_swap Token.parcel]
      refine (enrolled.trans (send_moves sound hsend _)).trans ?_
      rw [Multiset.cons_swap (Token.sending c q.session)]
      refine (moves_put q' _).trans ?_
      cases result with
      | error fault =>
        obtain ⟨_, y, hrec, h⟩ := bind_eq_ok.mp h
        obtain rfl := record_eq_ok.mp hrec
        obtain ⟨-, rfl⟩ := finishSession_eq_ok h
        have failed := (Move.failCall c q.session fault : Move setup { w with issuer := w.issuer.put q' } _ _ _).moves F
        simp only [Multiset.singleton_add, Multiset.zero_add] at failed
        exact failed
      | ok _ =>
        obtain ⟨_, y, hrec, h⟩ := bind_eq_ok.mp h
        obtain rfl := record_eq_ok.mp hrec
        have begun := (Move.beginCall c q.session now : Move setup { w with issuer := w.issuer.put q' } _ _ _).moves F
        simp only [Multiset.singleton_add] at begun
        exact begun.trans (awaitReply_moves h F)

theorem pollCall_moves (sound : inner.Sound setup) {now ticket : Nat} {r : Option (Except Fault Bytes)}
    (h : pollCall setup inner now ticket s = .ok (r, t)) (F : Hands) : Moves setup s F t F := by
  unfold pollCall at h
  obtain ⟨found, u, htake, h⟩ := bind_eq_ok.mp h
  rcases takeCall_moves setup htake F with ⟨rfl, nothing⟩ | ⟨c, rfl, -, taken⟩
  · obtain ⟨-, rfl⟩ := pure_eq_ok.mp h
    exact nothing
  · refine taken.trans ?_
    cases hphase : c.phase with
    | created =>
      simp only [hphase] at h
      exact sendCall_moves sound hphase h F
    | waiting session deadline =>
      simp only [hphase] at h
      have awaited : Moves setup u (.calling { c with phase := .waiting session deadline } ::ₘ F) t F :=
        awaitReply_moves h F
      rwa [← hphase] at awaited

theorem cancelCall_moves {ticket : Nat} {x : Unit} (h : cancelCall ticket s = .ok (x, t)) (F : Hands) :
    Moves setup s F t F := by
  unfold cancelCall at h
  obtain ⟨found, u, htake, h⟩ := bind_eq_ok.mp h
  rcases takeCall_moves setup htake F with ⟨rfl, nothing⟩ | ⟨c, rfl, rfl, taken⟩
  · obtain ⟨-, rfl⟩ := pure_eq_ok.mp h
    exact nothing
  · refine taken.trans ?_
    obtain ⟨_, v, hrec, h⟩ := bind_eq_ok.mp h
    obtain rfl := record_eq_ok.mp hrec
    cases hphase : c.phase with
    | created =>
      simp only [hphase] at h
      obtain ⟨-, rfl⟩ := pure_eq_ok.mp h
      have cancelled := (Move.cancelEarly hphase : Move setup u _ _ _).moves F
      simp only [Multiset.singleton_add, Multiset.zero_add] at cancelled
      exact cancelled
    | waiting session deadline =>
      simp only [hphase] at h
      obtain ⟨_, w, hdiscard, h⟩ := bind_eq_ok.mp h
      obtain ⟨-, rfl⟩ := discard_eq_ok.mp hdiscard
      obtain ⟨_, y, hmail, h⟩ := bind_eq_ok.mp h
      obtain ⟨-, rfl⟩ := takeMail_eq_ok.mp hmail
      obtain ⟨-, rfl⟩ := pure_eq_ok.mp h
      have cancelled := (Move.cancel hphase : Move setup u _ _ _).moves F
      simp only [Multiset.singleton_add, Multiset.zero_add] at cancelled
      exact cancelled

/-! ### Waits -/

theorem takeWait_moves (setup : Setup) {ticket : Nat} {found : Option Wait} (h : takeWait ticket s = .ok (found, t))
    (F : Hands) :
    (found = none ∧ Moves setup s F t F) ∨
    ∃ w, found = some w ∧ w.pending.ticket = ticket ∧ Moves setup s F t (.watching w ::ₘ F) := by
  obtain ⟨hfound, rfl⟩ := Prod.mk.injEq .. ▸ modifyGet_eq_ok.mp h
  cases found with
  | none =>
    refine .inl ⟨rfl, ?_⟩
    have : s.waits.filter (fun w => w.pending.ticket != ticket) = s.waits := by
      rw [List.find?_eq_none] at hfound
      exact List.filter_eq_self.mpr fun w hw => by simpa using hfound w hw
    rw [this]
    exact .refl
  | some w =>
    have hticket : w.pending.ticket = ticket := by simpa using List.find?_some hfound
    have taken := (Move.takeWait hfound : Move setup s _ _ _).moves F
    rw [Multiset.zero_add, Multiset.singleton_add] at taken
    exact .inr ⟨w, rfl, hticket, taken⟩

theorem beginWait_moves {now deadline : Nat} {w : Wait} (h : beginWait now w s = .ok (deadline, t)) (F : Hands) :
    Moves setup s (.watching w ::ₘ F) t (.watching { w with deadline := some deadline } ::ₘ F) := by
  unfold beginWait at h
  rcases hdeadline : w.deadline with _ | time
  · rw [hdeadline] at h
    obtain ⟨_, u, hrec, h⟩ := bind_eq_ok.mp h
    obtain rfl := record_eq_ok.mp hrec
    obtain ⟨rfl, rfl⟩ := pure_eq_ok.mp h
    have begun := (Move.beginWait now hdeadline : Move setup s _ _ _).moves F
    simp only [Multiset.singleton_add] at begun
    exact begun
  · rw [hdeadline] at h
    obtain ⟨rfl, rfl⟩ := pure_eq_ok.mp h
    rw [← hdeadline]
    exact .refl

/-- What decides a wait: a reply, its session gone without one, or the end of its time, in this order. -/
theorem pollWait_moves (sound : inner.Sound setup) {now ticket : Nat} {x : Unit}
    (h : pollWait setup inner now ticket s = .ok (x, t)) (F : Hands) : Moves setup s F t F := by
  unfold pollWait at h
  obtain ⟨found, u, htake, h⟩ := bind_eq_ok.mp h
  rcases takeWait_moves setup htake F with ⟨rfl, nothing⟩ | ⟨w₀, rfl, rfl, taken⟩
  · obtain ⟨-, rfl⟩ := pure_eq_ok.mp h
    exact nothing
  obtain ⟨deadline, v, hbegin, h⟩ := bind_eq_ok.mp h
  refine (taken.trans (beginWait_moves hbegin F)).trans ?_
  -- The wait with its time started has a name of its own, since every move below is about it.
  obtain ⟨w, hw⟩ : ∃ w : Wait, w = { w₀ with deadline := some deadline } := ⟨_, rfl⟩
  rw [← hw]
  have hpending : w₀.pending = w.pending := by rw [hw]
  have hlimit : w₀.limit = w.limit := by rw [hw]
  rw [hpending, hlimit] at h
  obtain ⟨reply, y, hmail, h⟩ := bind_eq_ok.mp h
  obtain ⟨hreply, rfl⟩ := takeMail_eq_ok.mp hmail
  cases reply with
  | some p =>
    have collected := (Move.collectWait hreply : Move setup v _ _ _).moves F
    simp only [Multiset.insert_eq_cons, Multiset.cons_add, Multiset.singleton_add] at collected
    exact collected.trans (deliver_moves sound h F)
  | none =>
    rw [unmail_of_lookup hreply] at h
    obtain ⟨_, _, hget, h⟩ := bind_eq_ok.mp h
    obtain ⟨rfl, rfl⟩ := get_eq_ok.mp hget
    split at h
    · rename_i gone
      obtain ⟨p, z, hsynth, h⟩ := bind_eq_ok.mp h
      obtain ⟨hpacket, rfl⟩ := synthesize_eq_ok hsynth
      have delivered := deliver_moves sound h F
      have bereaved := (Move.bereaveWait (w := w) hreply (by simpa using gone) :
        Move setup { v with issuer := v.issuer.get.2 } _ _ _).moves F
      simp only [Multiset.insert_eq_cons, Multiset.cons_add, Multiset.singleton_add] at bereaved
      rw [hpacket] at delivered
      exact ((moves_take _).trans bereaved).trans delivered
    · rename_i held
      split at h
      · rename_i late
        obtain ⟨_, z, hrec, h⟩ := bind_eq_ok.mp h
        obtain rfl := record_eq_ok.mp hrec
        obtain ⟨_, z', hdiscard, h⟩ := bind_eq_ok.mp h
        obtain ⟨-, rfl⟩ := discard_eq_ok.mp hdiscard
        obtain ⟨p, z'', hsynth, h⟩ := bind_eq_ok.mp h
        obtain ⟨hpacket, rfl⟩ := synthesize_eq_ok hsynth
        have delivered := deliver_moves sound h F
        have expired := (Move.expireWait (w := w) (by simpa using held) (by rw [hw]) late :
          Move setup { v with issuer := v.issuer.get.2 } _ _ _).moves F
        simp only [Multiset.insert_eq_cons, Multiset.cons_add, Multiset.singleton_add] at expired
        rw [hpacket] at delivered
        exact ((moves_take _).trans expired).trans delivered
      · obtain rfl := modify_eq_ok.mp h
        have kept := (Move.keepWait w : Move setup v _ _ _).moves F
        rw [Multiset.singleton_add, Multiset.zero_add, hw] at kept
        rw [hw]
        exact kept

/-! ### Everything -/

/-- Whatever is done with a connection, it is made of moves and leaves nothing in hand. -/
theorem act_moves {depth : Nat} {a : Act} {o : Outcome} (h : act setup depth a s = .ok (o, t)) (F : Hands) :
    Moves setup s F t F := by
  have sound := nested_sound setup depth
  cases a with
  | receive data =>
    obtain ⟨r, h, -⟩ := map_eq_ok.mp h
    exact receiveWith_moves sound h F
  | notify m =>
    obtain ⟨r, h, -⟩ := map_eq_ok.mp h
    exact notify_moves sound h F
  | callAsync m callbacks =>
    obtain ⟨r, h, -⟩ := map_eq_ok.mp h
    exact callAsync_moves sound h F
  | startCall m =>
    obtain ⟨n, h, -⟩ := map_eq_ok.mp h
    exact startCall_moves h F
  | pollCall now ticket =>
    obtain ⟨r, h, -⟩ := map_eq_ok.mp h
    exact pollCall_moves sound h F
  | cancelCall ticket =>
    obtain ⟨_, u, hcancel, h⟩ := bind_eq_ok.mp h
    obtain ⟨-, rfl⟩ := pure_eq_ok.mp h
    exact cancelCall_moves hcancel F
  | pollWait now ticket =>
    obtain ⟨_, u, hpoll, h⟩ := bind_eq_ok.mp h
    obtain ⟨-, rfl⟩ := pure_eq_ok.mp h
    exact pollWait_moves sound hpoll F
  | nextSession =>
    obtain ⟨-, rfl⟩ := Prod.mk.injEq .. ▸ modifyGet_eq_ok.mp h
    exact moves_draw F
  | close =>
    obtain ⟨_, u, hclose, h⟩ := bind_eq_ok.mp h
    obtain ⟨-, rfl⟩ := pure_eq_ok.mp h
    exact closeWith_moves sound hclose F

end Engine
end Switchboard
