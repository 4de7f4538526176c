import Switchboard.Proofs.Link.Manners

/-! What is done with a connection from its own side: calls are made, polled and given up, waits are polled, and it is
    closed. Whatever it is, no response is written and none is heard, and requests are written as they were
    registered. -/

namespace Switchboard
namespace Engine

/-- Something is done with a connection from its own side. -/
def Act.Own : Act → Prop
  | .receive _ => False
  | .callAsync _ callbacks => ∀ handler ∈ callbacks, handler.Sincere
  | _ => True

variable {f : Framing} {setup : Setup} {shared : Bool} {inner : Inner} {s t : Engine} {H : Hands}

/-! ### Calls -/

theorem startCall_hushed (m : Outbound) : Hushed f (fun _ => True) (startCall m) := by
  intro s n t plainly h
  unfold startCall at h
  obtain ⟨ticket, u, hopen, h⟩ := bind_eq_ok.mp h
  obtain ⟨rfl, rfl⟩ := openTicket_eq_ok.mp hopen
  obtain ⟨_, v, hrec, h⟩ := bind_eq_ok.mp h
  obtain rfl := record_eq_ok.mp hrec
  obtain ⟨_, w, hcalls, h⟩ := bind_eq_ok.mp h
  obtain rfl := modify_eq_ok.mp hcalls
  obtain ⟨-, rfl⟩ := pure_eq_ok.mp h
  have opened : Spoke f s [] [] { s with tickets := s.tickets + 1 } := .of_same plainly rfl rfl rfl rfl
  have noted : Spoke f _ [] [] (note (.called s.tickets m) _) := .note opened.plainly trivial
  exact ⟨(opened.hush noted).hush (.of_same noted.plainly rfl rfl rfl rfl), trivial⟩

theorem keepCall_hushed (c : Call) : Hushed f (fun _ => True) (keepCall c) := by
  intro s x t plainly h
  obtain rfl := modify_eq_ok.mp h
  exact ⟨.of_same plainly rfl rfl rfl rfl, trivial⟩

theorem finish_hushed (ticket : Nat) (result : Except Fault Bytes) : Hushed f (fun _ => True) (finish ticket result) :=
  (record_hushed (e := .finished ticket result) trivial).bind fun _ _ => .pure trivial

theorem finishSession_hushed (ticket : Nat) (session : UInt64) (result : Except Fault Bytes) :
    Hushed f (fun _ => True) (finishSession ticket session result) :=
  (finish_hushed ticket result).bind fun _ _ => (discard_hushed session).bind fun _ _ =>
    (takeMail_hushed ticket).bind fun _ _ => .pure trivial

theorem awaitReply_hushed (now : Nat) (c : Call) (session : UInt64) (deadline : Option (Nat × Duration)) :
    Hushed f (fun _ => True) (awaitReply now c session deadline) := by
  refine (takeMail_hushed c.ticket).bind fun found _ => ?_
  cases found with
  | some p => exact (putParcel_hushed p).bind fun _ _ => finishSession_hushed _ _ _
  | none =>
    refine Hushed.get.bind fun u _ => ?_
    split
    · exact finishSession_hushed _ _ _
    · cases passed now deadline with
      | some limit => exact (record_hushed (e := .expired _ _) trivial).bind fun _ _ => finishSession_hushed _ _ _
      | none => exact (keepCall_hushed _).bind fun _ _ => .pure trivial

/-- A call that is polled for the first time has its request written as it is registered. -/
theorem sendCall_hushed {now : Nat} {c : Call} {r : Option (Except Fault Bytes)} (plainly : s.Plainly)
    (called : .called c.ticket c.message ∈ s.journal) (h : sendCall setup inner now c s = .ok (r, t)) :
    Spoke setup.framing s [] [] t := by
  unfold sendCall at h
  obtain ⟨p, u, hissue, h⟩ := bind_eq_ok.mp h
  have issued := (issue_hushed (f := setup.framing) _ _ _ plainly hissue).1
  have there : .called c.ticket c.message ∈ u.journal := by
    obtain ⟨-, -, rfl⟩ := issue_eq_ok hissue
    exact called
  refine issued.hush ?_
  have plainly := issued.plainly
  -- A call that is refused gives its packet back and comes back at once.
  have refused : ∀ (q : Parcel) (result : Except Fault Bytes) (t : Engine),
      (putParcel q >>= fun _ => finish c.ticket result) u = .ok (r, t) → Spoke setup.framing u [] [] t := by
    intro q result t h
    exact ((putParcel_hushed q).bind (fun _ _ => finish_hushed c.ticket result) u r t plainly h).1
  rcases hload : p.load (c.message.body.map .value) with ⟨q, fault | _⟩
  · simp only [hload] at h
    exact refused q _ t h
  · simp only [hload] at h
    obtain ⟨answer, v, hregister, rest⟩ := bind_eq_ok.mp h
    clear h
    rcases register_cases hregister with ⟨rfl, -, rfl⟩ | ⟨rfl, -, -, rfl⟩
    · exact refused q _ t rest
    have drafted : ∃ made : Made, made.entry (Session.waiting c.ticket true).ticket ∈ u.journal ∧
        made.message.Drafts q.toPacket :=
      ⟨.call c.message, there, drafts_of_issue hissue hload⟩
    have unpledged : ∀ pending, Session.pending? (.waiting c.ticket true) = some pending → pending.Sincere :=
      fun _ none => nomatch none
    obtain ⟨⟨q', result⟩, w, hsend, given⟩ := bind_eq_ok.mp rest
    obtain ⟨_, x, hput, ends⟩ := bind_eq_ok.mp given
    clear rest given
    have line : (u.enroll (.waiting c.ticket true) q.toPacket).line = {} := plainly.line
    rcases (send_cases line hsend).2 with ⟨⟨fault, rfl, misfit⟩, rfl⟩ | ⟨frame, rfl, encoded, rfl⟩
    · obtain rfl := putParcel_eq_ok.mp hput
      obtain ⟨_, y, hrec, finished⟩ := bind_eq_ok.mp ends
      obtain rfl := record_eq_ok.mp hrec
      have balked : Spoke setup.framing u [] []
          ((u.enroll (.waiting c.ticket true) q.toPacket).note (.unsent c.ticket fault)) :=
        .balk plainly drafted unpledged misfit
      have kept : Spoke setup.framing u [] [] (note (.unsent c.ticket fault)
          { u.enroll (.waiting c.ticket true) q.toPacket with issuer := u.issuer.put q' }) :=
        balked.hush (.of_same balked.plainly rfl rfl rfl rfl)
      exact kept.hush (finishSession_hushed _ _ _ _ _ _ kept.plainly finished).1
    · have asked : Spoke setup.framing u [] [] ((u.enroll (.waiting c.ticket true) q.toPacket).utter frame) :=
        .ask plainly drafted unpledged encoded
      have kept := (putParcel_hushed (f := setup.framing) q' _ _ _ asked.plainly hput).1
      have waits : Hushed setup.framing (fun _ => True) (record (.began c.ticket now) >>= fun _ =>
          awaitReply now c q.session (c.message.timeout.map fun limit => (now + limit.nanoseconds, limit))) :=
        (record_hushed (e := .began c.ticket now) trivial).bind fun _ _ => awaitReply_hushed _ _ _ _
      exact (asked.hush kept).hush (waits _ _ _ kept.plainly ends).1

theorem pollCall_hushed {now ticket : Nat} {r : Option (Except Fault Bytes)} (inv : Inv setup s H) (plainly : s.Plainly)
    (h : pollCall setup inner now ticket s = .ok (r, t)) : Spoke setup.framing s [] [] t := by
  unfold pollCall at h
  obtain ⟨found, u, htake, h⟩ := bind_eq_ok.mp h
  obtain ⟨hfound, rfl⟩ := Prod.mk.injEq .. ▸ modifyGet_eq_ok.mp htake
  have taken : Spoke setup.framing s [] [] { s with calls := s.calls.filter fun c => c.ticket != ticket } :=
    .of_same plainly rfl rfl rfl rfl
  refine taken.hush ?_
  cases found with
  | none =>
    obtain ⟨-, rfl⟩ := pure_eq_ok.mp h
    exact .refl taken.plainly
  | some c =>
    have fits := inv.fits _ (calling_mem_estate (List.mem_of_find?_eq_some hfound))
    cases phase : c.phase with
    | created =>
      simp only [phase] at h
      exact sendCall_hushed taken.plainly (mem_of_made fits.1) h
    | waiting session deadline =>
      simp only [phase] at h
      exact (awaitReply_hushed now c session deadline _ _ _ taken.plainly h).1

theorem cancelCall_hushed (ticket : Nat) : Hushed f (fun _ => True) (cancelCall ticket) := by
  intro s x t plainly h
  unfold cancelCall at h
  obtain ⟨found, u, htake, h⟩ := bind_eq_ok.mp h
  obtain ⟨hfound, rfl⟩ := Prod.mk.injEq .. ▸ modifyGet_eq_ok.mp htake
  have taken : Spoke f s [] [] { s with calls := s.calls.filter fun c => c.ticket != ticket } :=
    .of_same plainly rfl rfl rfl rfl
  suffices given : Spoke f { s with calls := s.calls.filter fun c => c.ticket != ticket } [] [] t from
    ⟨taken.hush given, trivial⟩
  cases found with
  | none =>
    obtain ⟨-, rfl⟩ := pure_eq_ok.mp h
    exact .refl taken.plainly
  | some c =>
    obtain ⟨_, v, hrec, h⟩ := bind_eq_ok.mp h
    have noted := (record_hushed (f := f) (e := .cancelled ticket) trivial _ _ _ taken.plainly hrec).1
    refine noted.hush ?_
    cases phase : c.phase with
    | created =>
      simp only [phase] at h
      obtain ⟨-, rfl⟩ := pure_eq_ok.mp h
      exact .refl noted.plainly
    | waiting session deadline =>
      simp only [phase] at h
      have left : Hushed f (fun _ : Unit => True) (do let _ ← discard session; let _ ← takeMail ticket; pure ()) :=
        (discard_hushed session).bind fun _ _ => (takeMail_hushed ticket).bind fun _ _ => .pure trivial
      exact (left _ _ _ noted.plainly h).1

/-! ### Waits -/

/-- A reply that was handed over is a response. -/
theorem Inv.response_of_mail (inv : Inv setup s H) {ticket : Nat} {p : Parcel} (mem : (ticket, p) ∈ s.mail) :
    p.command = .response := by
  have handed : p ∈ (s.standing ticket).mail := mem_mailOf.mpr mem
  have sound := inv.sound ticket
  unfold Standing.Sound at sound
  cases fate : (s.standing ticket).account.fate with
  | replied r q =>
    simp only [fate] at sound
    -- What is in the mail of a call is what its session was settled with.
    rcases sound.2 with none | ⟨p', one, rfl⟩
    · rw [none] at handed
      cases handed
    · rw [one] at handed
      obtain rfl := List.mem_singleton.mp handed
      exact (inv.coherent.firstReply fate).response
  | _ =>
    simp only [fate] at sound
    rw [sound.2] at handed
    cases handed

theorem beginWait_hushed (now : Nat) (w : Wait) : Hushed f (fun _ => True) (beginWait now w) := by
  unfold beginWait
  cases w.deadline with
  | some deadline => exact .pure trivial
  | none => exact (record_hushed (e := .began w.pending.ticket now) trivial).bind fun _ _ => .pure trivial

theorem beginWait_mail {now deadline : Nat} {w : Wait} (h : beginWait now w s = .ok (deadline, t)) : t.mail = s.mail := by
  unfold beginWait at h
  cases hdeadline : w.deadline with
  | some time =>
    rw [hdeadline] at h
    obtain ⟨-, rfl⟩ := pure_eq_ok.mp h
    rfl
  | none =>
    rw [hdeadline] at h
    obtain ⟨_, u, hrec, h⟩ := bind_eq_ok.mp h
    obtain rfl := record_eq_ok.mp hrec
    obtain ⟨-, rfl⟩ := pure_eq_ok.mp h
    rfl

theorem keepWait_hushed {w : Wait} (sincere : w.pending.Sincere) : Hushed f (fun _ => True) (keepWait w) := by
  intro s x t plainly h
  obtain rfl := modify_eq_ok.mp h
  refine ⟨⟨⟨[], rfl, rfl, rfl⟩, id, plainly.line, plainly.rested, plainly.pledged, fun w' mem => ?_⟩, trivial⟩
  rcases List.mem_append.mp mem with mem | mem
  · exact plainly.waited w' mem
  · rw [List.mem_singleton.mp mem]
    exact sincere

theorem pollWait_hushed (upright : setup.Upright) (hushed : Hushed setup.framing (fun _ => True) inner.close)
    {now ticket : Nat} {x : Unit} (inv : Inv setup s H) (plainly : s.Plainly)
    (h : pollWait setup inner now ticket s = .ok (x, t)) : Spoke setup.framing s [] [] t := by
  unfold pollWait at h
  obtain ⟨found, u, htake, h⟩ := bind_eq_ok.mp h
  obtain ⟨hfound, rfl⟩ := Prod.mk.injEq .. ▸ modifyGet_eq_ok.mp htake
  have taken : Spoke setup.framing s [] [] { s with waits := s.waits.filter fun w => w.pending.ticket != ticket } :=
    .of_journal plainly rfl rfl (fun _ => id) fun _ mem => List.mem_of_mem_filter mem
  refine taken.hush ?_
  cases found with
  | none =>
    obtain ⟨-, rfl⟩ := pure_eq_ok.mp h
    exact .refl taken.plainly
  | some w =>
    have sincere := plainly.waited w (List.mem_of_find?_eq_some hfound)
    obtain ⟨deadline, v, hbegin, h⟩ := bind_eq_ok.mp h
    have mail : v.mail = s.mail := (beginWait_mail hbegin :)
    have begun := (beginWait_hushed (f := setup.framing) now w _ _ _ taken.plainly hbegin).1
    refine begun.hush ?_
    obtain ⟨reply, y, hmail, h⟩ := bind_eq_ok.mp h
    have read := (takeMail_hushed (f := setup.framing) ticket _ _ _ begun.plainly hmail).1
    refine read.hush ?_
    cases reply with
    | some p =>
      obtain ⟨before, after, whole, -⟩ := List.lookup_eq_some_iff.mp (takeMail_eq_ok.mp hmail).1
      have handed : (ticket, p) ∈ s.mail := by
        rw [← mail, whole]
        simp
      -- Callbacks are run with no request, so nothing they do is a response.
      have response : p.command = .response := inv.response_of_mail handed
      exact (deliver_hushed hushed upright sincere (by simp [response]) _ _ _ read.plainly h).1
    | none =>
      have made : ∀ fault, Hushed setup.framing (fun _ => True)
          (synthesize w.pending.request.toPacket fault >>= deliver setup inner w.pending) := fun fault =>
        synthesize_hushed.bind fun p unasked => deliver_hushed hushed upright sincere unasked
      have rest : Hushed setup.framing (fun _ : Unit => True) (do
          if !(← get).table.holds ticket then
            let p ← synthesize w.pending.request.toPacket .closedWaiting
            deliver setup inner w.pending p
          else if deadline ≤ now then
            record (.expired ticket now)
            let _ ← discard w.pending.request.session
            let p ← synthesize w.pending.request.toPacket (.waitTimedOut w.limit)
            deliver setup inner w.pending p
          else keepWait { w with deadline := some deadline }) := by
        refine Hushed.get.bind fun z _ => ?_
        split
        · exact made _
        split
        · exact (record_hushed (e := .expired ticket now) trivial).bind fun _ _ =>
            (discard_hushed _).bind fun _ _ => made _
        · exact keepWait_hushed sincere
      exact (rest _ _ _ read.plainly h).1

/-! ### Everything done from the own side -/

/-- Whatever is done with a connection from its own side, it writes no response and hears none. -/
theorem act_hushed (upright : setup.Upright) (inv : Inv setup s H) (plainly : s.Plainly) {depth : Nat} {a : Act}
    {o : Outcome} (own : a.Own) (h : act setup depth a s = .ok (o, t)) : Spoke setup.framing s [] [] t := by
  have hushed := nested_hushed upright depth
  cases a with
  | receive data => exact own.elim
  | notify m =>
    obtain ⟨r, h, -⟩ := map_eq_ok.mp h
    exact (notify_hushed m _ _ _ plainly h).1
  | callAsync m callbacks =>
    obtain ⟨r, h, -⟩ := map_eq_ok.mp h
    exact (callAsync_hushed own _ _ _ plainly h).1
  | startCall m =>
    obtain ⟨n, h, -⟩ := map_eq_ok.mp h
    exact (startCall_hushed m _ _ _ plainly h).1
  | pollCall now ticket =>
    obtain ⟨r, h, -⟩ := map_eq_ok.mp h
    exact pollCall_hushed inv plainly h
  | cancelCall ticket =>
    obtain ⟨_, u, hcancel, h⟩ := bind_eq_ok.mp h
    obtain ⟨-, rfl⟩ := pure_eq_ok.mp h
    exact (cancelCall_hushed ticket _ _ _ plainly hcancel).1
  | pollWait now ticket =>
    obtain ⟨_, u, hpoll, h⟩ := bind_eq_ok.mp h
    obtain ⟨-, rfl⟩ := pure_eq_ok.mp h
    exact pollWait_hushed upright hushed inv plainly hpoll
  | nextSession =>
    obtain ⟨-, rfl⟩ := Prod.mk.injEq .. ▸ modifyGet_eq_ok.mp h
    exact .of_same plainly rfl rfl rfl rfl
  | close =>
    obtain ⟨_, u, hclose, h⟩ := bind_eq_ok.mp h
    obtain ⟨-, rfl⟩ := pure_eq_ok.mp h
    exact (closeWith_hushed hushed upright _ _ _ plainly hclose).1

end Engine
end Switchboard
