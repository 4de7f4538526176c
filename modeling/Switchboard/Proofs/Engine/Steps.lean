import Switchboard.Proofs.Engine.Table

/-! The work on a connection is made of moves. Each function on the state has its line here: which moves it
    makes, and what it holds when it begins and when it ends. What lies within other work is a hypothesis
    (`Inner.Sound`) until `nested_sound` discharges it at every depth. -/

namespace Switchboard
namespace Parcel

variable {p q : Parcel} {content : Except Fault Content} {fault : Fault} {frame : Bytes} {framing : Framing}

theorem frame_toPacket (p : Parcel) (f : Framing) : (p.frame f).1.toPacket = p.toPacket := by
  unfold frame
  split
  · rfl
  · split <;> rfl

theorem load_eq_error (h : p.load content = (q, .error fault)) : content = .error fault := by
  cases content with
  | ok c => cases h
  | error fault' =>
    cases h
    rfl

theorem load_eq_ok {x : Unit} (h : p.load content = (q, .ok x)) :
    (∃ c, content = .ok c) ∧ q.session = p.session := by
  cases content with
  | error fault => cases h
  | ok c =>
    cases h
    exact ⟨⟨c, rfl⟩, rfl⟩

end Parcel

/-- A message whose content is loaded encodes. -/
theorem Outbound.encodes_of_map {m : Outbound} {c : Content} (h : m.body.map .value = .ok c) : m.Encodes := by
  cases hbody : m.body with
  | ok octets => exact ⟨octets, hbody⟩
  | error fault =>
    rw [hbody] at h
    cases h

theorem Outbound.body_of_map {m : Outbound} {fault : Fault} (h : m.body.map Content.value = .error fault) :
    m.body = .error fault := by
  cases hbody : m.body with
  | ok octets =>
    rw [hbody] at h
    cases h
  | error fault' =>
    rw [hbody] at h
    cases h
    rfl

/-- What comes back to a connection from within its own work makes moves and keeps nothing. -/
structure Inner.Sound (setup : Setup) (inner : Inner) : Prop where
  receive : ∀ {data : Bytes} {s t : Engine} {r : Except Fault Unit}, inner.receive data s = .ok (r, t) →
    ∀ F, Engine.Moves setup s F t F
  close : ∀ {s t : Engine} {x : Unit}, inner.close s = .ok (x, t) → ∀ F, Engine.Moves setup s F t F

namespace Engine

variable {setup : Setup} {inner : Inner} {s t : Engine}

/-! ### Single moves -/

theorem moves_take (F : Hands) : Moves setup s F { s with issuer := s.issuer.get.2 } (.parcel ::ₘ F) := by
  simpa using Move.take.moves F

theorem moves_put (p : Parcel) (F : Hands) :
    Moves setup s (.parcel ::ₘ F) { s with issuer := s.issuer.put p } F := by
  simpa using (Move.put p).moves F

theorem moves_note {e : Entry} (plain : Plain setup e) (F : Hands) : Moves setup s F (s.note e) F := by
  simpa using (Move.note plain).moves F

theorem moves_draw (F : Hands) : Moves setup s F s.draw F := by
  simpa using Move.draw.moves F

/-- Taking out a packet for a message draws a number. -/
theorem moves_issue {command : Command} {m : Outbound} {p : Parcel} (h : issue command m s = .ok (p, t))
    (F : Hands) : Moves setup s F t (.parcel ::ₘ F) := by
  obtain ⟨-, -, rfl⟩ := issue_eq_ok h
  exact (moves_draw F).trans (moves_take F)

/-! ### Writing -/

theorem reportAll_moves {events : List Event} {x : Unit} (h : reportAll events s = .ok (x, t)) (F : Hands) :
    Moves setup s F t F := by
  induction events generalizing s with
  | nil =>
    obtain ⟨-, rfl⟩ := pure_eq_ok.mp h
    exact .refl
  | cons e rest ih =>
    obtain ⟨_, u, hrec, h⟩ := bind_eq_ok.mp h
    obtain rfl := record_eq_ok.mp hrec
    exact (moves_note (e := .event e) trivial F).trans (ih h)

theorem receiveFrame_moves (sound : inner.Sound setup) {frame : Except Fault Bytes} {r : Except Fault Unit}
    (h : receiveFrame inner frame s = .ok (r, t)) (F : Hands) : Moves setup s F t F := by
  cases frame with
  | ok frame => exact sound.receive h F
  | error fault =>
    obtain ⟨-, rfl⟩ := pure_eq_ok.mp h
    exact .refl

theorem react_moves (sound : inner.Sound setup) {reactions : List Reaction} {x : Unit}
    (h : react inner reactions s = .ok (x, t)) (F : Hands) : Moves setup s F t F := by
  induction reactions generalizing s with
  | nil =>
    obtain ⟨-, rfl⟩ := pure_eq_ok.mp h
    exact .refl
  | cons reaction rest ih =>
    cases reaction with
    | close =>
      obtain ⟨_, u, hclose, h⟩ := bind_eq_ok.mp h
      exact (sound.close hclose F).trans (ih h)
    | receive frame event =>
      obtain ⟨result, u, hreceive, h⟩ := bind_eq_ok.mp h
      obtain ⟨_, v, hrec, h⟩ := bind_eq_ok.mp h
      obtain rfl := record_eq_ok.mp hrec
      exact ((receiveFrame_moves sound hreceive F).trans
        (moves_note (e := .event (event result)) trivial F)).trans (ih h)

theorem countFrame_moves {frame : Bytes} {x : Unit} (h : countFrame frame s = .ok (x, t)) (F : Hands) :
    Moves setup s F t F := by
  have counted : Moves setup s F { s with writes := s.writes + 1 } F := by
    simpa using (Move.writes (s.writes + 1)).moves F
  obtain rfl := modify_eq_ok.mp h
  dsimp only
  split
  · exact counted.trans (moves_note (e := .wrote frame) trivial F)
  · exact counted

theorem write_moves (sound : inner.Sound setup) {frame : Bytes} {r : Except Fault Unit}
    (h : write inner frame s = .ok (r, t)) (F : Hands) : Moves setup s F t F := by
  unfold write at h
  obtain ⟨_, _, hget, h⟩ := bind_eq_ok.mp h
  obtain ⟨rfl, rfl⟩ := get_eq_ok.mp hget
  obtain ⟨_, u, hcount, h⟩ := bind_eq_ok.mp h
  obtain ⟨_, v, hreact, h⟩ := bind_eq_ok.mp h
  obtain ⟨-, rfl⟩ := pure_eq_ok.mp h
  exact (countFrame_moves hcount F).trans (react_moves sound hreact F)

theorem send_moves (sound : inner.Sound setup) {p q : Parcel} {r : Except Fault Unit}
    (h : send setup inner p s = .ok ((q, r), t)) (F : Hands) : Moves setup s F t F := by
  unfold send at h
  rcases hframe : p.frame setup.framing with ⟨p', fault | frame⟩
  · rw [hframe] at h
    obtain ⟨-, rfl⟩ := pure_eq_ok.mp h
    exact .refl
  · rw [hframe] at h
    obtain ⟨result, u, hwrite, h⟩ := bind_eq_ok.mp h
    obtain ⟨-, rfl⟩ := pure_eq_ok.mp h
    exact write_moves sound hwrite F

theorem sendAway_moves (sound : inner.Sound setup) {p : Parcel} {content : Except Fault Content}
    {r : Except Fault Unit} (h : sendAway setup inner p content s = .ok (r, t)) (F : Hands) :
    Moves setup s (.parcel ::ₘ F) t F := by
  unfold sendAway at h
  rcases hload : p.load content with ⟨p', fault | _⟩
  · rw [hload] at h
    obtain ⟨_, u, hput, h⟩ := bind_eq_ok.mp h
    obtain rfl := putParcel_eq_ok.mp hput
    obtain ⟨-, rfl⟩ := pure_eq_ok.mp h
    exact moves_put _ F
  · rw [hload] at h
    obtain ⟨⟨q, result⟩, u, hsend, h⟩ := bind_eq_ok.mp h
    obtain ⟨_, v, hput, h⟩ := bind_eq_ok.mp h
    obtain rfl := putParcel_eq_ok.mp hput
    obtain ⟨-, rfl⟩ := pure_eq_ok.mp h
    exact (send_moves sound hsend _).trans (moves_put _ F)

theorem respond_moves (sound : inner.Sound setup) {c : Context} {content : Except Fault Content}
    {metadata : Metadata} {r : Except Fault Unit} (h : respond setup inner c content metadata s = .ok (r, t))
    (F : Hands) : Moves setup s F t F := by
  unfold respond at h
  rcases hmay : c.mayRespond with fault | _
  · rw [hmay] at h
    obtain ⟨-, rfl⟩ := pure_eq_ok.mp h
    exact .refl
  · rw [hmay] at h
    obtain ⟨p, u, hanswer, h⟩ := bind_eq_ok.mp h
    obtain ⟨-, rfl⟩ := answer_eq_ok.mp hanswer
    exact (moves_take F).trans (sendAway_moves sound h F)

theorem notify_moves (sound : inner.Sound setup) {m : Outbound} {r : Except Fault Unit}
    (h : notify setup inner m s = .ok (r, t)) (F : Hands) : Moves setup s F t F := by
  obtain ⟨p, u, hissue, h⟩ := bind_eq_ok.mp h
  exact (moves_issue hissue F).trans (sendAway_moves sound h F)

/-! ### Asynchronous calls -/

theorem takeUp_moves {m : Outbound} {pending : Pending} {limit : Duration} {x : Unit}
    (timed : m.timeout = some limit) (h : takeUp setup pending limit s = .ok (x, t)) (F : Hands) :
    Moves setup s (.promised m pending ::ₘ F) t (.answering pending.ticket (.ok ()) ::ₘ F) := by
  unfold takeUp at h
  cases hspawner : setup.spawner with
  | drop =>
    rw [hspawner] at h
    obtain rfl := modify_eq_ok.mp h
    simpa using (Move.forsake hspawner).moves F
  | ambient =>
    rw [hspawner] at h
    obtain rfl := modify_eq_ok.mp h
    simpa using (Move.watch timed (by simp [hspawner])).moves F
  | keep =>
    rw [hspawner] at h
    obtain rfl := modify_eq_ok.mp h
    simpa using (Move.watch timed (by simp [hspawner])).moves F

/-- A request that cannot be registered, or whose call is given up before that, goes back to the pool. -/
theorem refuse_moves (p : Parcel) (m : Outbound) (pending : Pending) (fault : Fault) (F : Hands) :
    Moves setup s (.parcel ::ₘ .asked pending.ticket m pending.callbacks ::ₘ F)
      { s with issuer := s.issuer.put p } (.answering pending.ticket (.error fault) ::ₘ F) := by
  refine (moves_put p _).trans ?_
  simpa using (Move.refuse pending.ticket m pending.callbacks fault).moves F

/-- Callbacks without a time limit go into the table; when the writing fails they are given up, unless a
    reply or the closing of the connection took them. -/
theorem expectReply_moves_of_patient (sound : inner.Sound setup) {m : Outbound} {pending : Pending}
    {frame : Bytes} {r : Except Fault Unit} (patient : m.timeout = none)
    (number : pending.request.session = UInt64.ofNat (s.issuer.drawn + 1))
    (h : expectReply setup inner m pending frame s.draw = .ok (r, t)) (F : Hands) :
    Moves setup s (.parcel ::ₘ .asked pending.ticket m pending.callbacks ::ₘ F) t
      (.answering pending.ticket r ::ₘ F) := by
  unfold expectReply at h
  simp only [patient] at h
  obtain ⟨answer, u, hregister, h⟩ := bind_eq_ok.mp h
  rcases register_cases hregister with ⟨rfl, -, rfl⟩ | ⟨rfl, isOpen, free, rfl⟩
  · obtain ⟨_, v, hput, h⟩ := bind_eq_ok.mp h
    obtain rfl := putParcel_eq_ok.mp hput
    obtain ⟨rfl, rfl⟩ := pure_eq_ok.mp h
    exact (moves_draw _).trans (refuse_moves _ _ _ _ F)
  · have enrolled := (Move.enrollCallbacks patient ⟨isOpen, free, number⟩ : Move setup s _ _ _).moves F
    simp only [Multiset.insert_eq_cons, Multiset.cons_add, Multiset.singleton_add] at enrolled
    obtain ⟨written, v, hwrite, h⟩ := bind_eq_ok.mp h
    refine (enrolled.trans (write_moves sound hwrite _)).trans ?_
    cases written with
    | ok _ =>
      obtain ⟨rfl, rfl⟩ := pure_eq_ok.mp h
      simpa using (Move.accept m pending).moves F
    | error fault =>
      obtain ⟨_, w, hrec, h⟩ := bind_eq_ok.mp h
      obtain rfl := record_eq_ok.mp hrec
      obtain ⟨found, x, hdiscard, h⟩ := bind_eq_ok.mp h
      obtain ⟨hfound, rfl⟩ := discard_eq_ok.mp hdiscard
      cases found with
      -- The callbacks were taken while the request was written, so the call itself succeeds.
      | none =>
        obtain ⟨rfl, rfl⟩ := pure_eq_ok.mp h
        rw [strike_of_find hfound]
        have missing : v.table.find pending.request.session = none := hfound
        simpa using (Move.failLate fault missing).moves F
      | some entry =>
        have failed := (Move.fail (m := m) fault (show v.table.find _ = some entry from hfound) :
          Move setup v _ _ _).moves F
        cases entry with
        -- The callbacks will not be run, so the packet they hold goes back.
        | callback orphan =>
          obtain ⟨_, y, hput, h⟩ := bind_eq_ok.mp h
          obtain rfl := putParcel_eq_ok.mp hput
          obtain ⟨rfl, rfl⟩ := pure_eq_ok.mp h
          simp only [orphans, Multiset.singleton_add, Multiset.cons_add] at failed
          exact failed.trans (moves_put _ _)
        | waiting ticket listening =>
          obtain ⟨rfl, rfl⟩ := pure_eq_ok.mp h
          simpa [orphans] using failed

/-- With a time limit someone else waits for the reply; when the writing fails nobody does. -/
theorem expectReply_moves_of_timed (sound : inner.Sound setup) {m : Outbound} {pending : Pending}
    {frame : Bytes} {r : Except Fault Unit} {limit : Duration} (timed : m.timeout = some limit)
    (number : pending.request.session = UInt64.ofNat (s.issuer.drawn + 1))
    (h : expectReply setup inner m pending frame s.draw = .ok (r, t)) (F : Hands) :
    Moves setup s (.parcel ::ₘ .asked pending.ticket m pending.callbacks ::ₘ F) t
      (.answering pending.ticket r ::ₘ F) := by
  unfold expectReply at h
  simp only [timed] at h
  obtain ⟨answer, u, hregister, h⟩ := bind_eq_ok.mp h
  rcases register_cases hregister with ⟨rfl, -, rfl⟩ | ⟨rfl, isOpen, free, rfl⟩
  · obtain ⟨_, v, hput, h⟩ := bind_eq_ok.mp h
    obtain rfl := putParcel_eq_ok.mp hput
    obtain ⟨rfl, rfl⟩ := pure_eq_ok.mp h
    exact (moves_draw _).trans (refuse_moves _ _ _ _ F)
  · have enrolled :=
      (Move.enrollWait (by rw [timed]; rfl) ⟨isOpen, free, number⟩ : Move setup s _ _ _).moves F
    simp only [Multiset.insert_eq_cons, Multiset.cons_add, Multiset.singleton_add] at enrolled
    obtain ⟨written, v, hwrite, h⟩ := bind_eq_ok.mp h
    refine (enrolled.trans (write_moves sound hwrite _)).trans ?_
    cases written with
    | ok _ =>
      obtain ⟨_, w, htake, h⟩ := bind_eq_ok.mp h
      obtain ⟨rfl, rfl⟩ := pure_eq_ok.mp h
      exact takeUp_moves timed htake F
    | error fault =>
      obtain ⟨_, w, hrec, h⟩ := bind_eq_ok.mp h
      obtain rfl := record_eq_ok.mp hrec
      obtain ⟨_, x, hdiscard, h⟩ := bind_eq_ok.mp h
      obtain ⟨-, rfl⟩ := discard_eq_ok.mp hdiscard
      obtain ⟨_, y, hmail, h⟩ := bind_eq_ok.mp h
      obtain ⟨-, rfl⟩ := takeMail_eq_ok.mp hmail
      obtain ⟨_, z, hput, h⟩ := bind_eq_ok.mp h
      obtain rfl := putParcel_eq_ok.mp hput
      obtain ⟨rfl, rfl⟩ := pure_eq_ok.mp h
      have failed := (Move.failWait m pending fault : Move setup v _ _ _).moves F
      simp only [Multiset.insert_eq_cons, Multiset.cons_add, Multiset.singleton_add] at failed
      exact failed.trans (moves_put _ _)

theorem expectReply_moves (sound : inner.Sound setup) {m : Outbound} (pending : Pending)
    {frame : Bytes} {r : Except Fault Unit}
    (number : pending.request.session = UInt64.ofNat (s.issuer.drawn + 1))
    (h : expectReply setup inner m pending frame s.draw = .ok (r, t)) (F : Hands) :
    Moves setup s (.parcel ::ₘ .asked pending.ticket m pending.callbacks ::ₘ F) t
      (.answering pending.ticket r ::ₘ F) := by
  cases htimeout : m.timeout with
  | none => exact expectReply_moves_of_patient sound htimeout number h F
  | some limit => exact expectReply_moves_of_timed sound htimeout number h F

theorem request_moves (sound : inner.Sound setup) {m : Outbound} {callbacks : List Program} {ticket : Nat}
    {r : Except Fault Unit} (h : request setup inner m callbacks ticket s = .ok (r, t)) (F : Hands) :
    Moves setup s (.asked ticket m callbacks ::ₘ F) t (.answering ticket r ::ₘ F) := by
  unfold request at h
  obtain ⟨_, _, hget, h⟩ := bind_eq_ok.mp h
  obtain ⟨rfl, rfl⟩ := get_eq_ok.mp hget
  split at h
  · obtain ⟨rfl, rfl⟩ := pure_eq_ok.mp h
    simpa using (Move.refuse ticket m callbacks .noRuntime).moves F
  · obtain ⟨p, u, hissue, h⟩ := bind_eq_ok.mp h
    obtain ⟨-, number, rfl⟩ := issue_eq_ok hissue
    refine (moves_take _).trans ?_
    rcases hload : p.load (m.body.map .value) with ⟨q, fault | _⟩
    · rw [hload] at h
      obtain ⟨_, v, hput, h⟩ := bind_eq_ok.mp h
      obtain rfl := putParcel_eq_ok.mp hput
      obtain ⟨rfl, rfl⟩ := pure_eq_ok.mp h
      exact (moves_draw _).trans (refuse_moves q m { ticket, callbacks, request := q } fault F)
    · rw [hload] at h
      obtain ⟨-, hsession⟩ := Parcel.load_eq_ok hload
      have hpacket := Parcel.frame_toPacket q setup.framing
      rcases hframe : q.frame setup.framing with ⟨q', fault | frame⟩
      · simp only [hframe] at h
        obtain ⟨_, v, hput, h⟩ := bind_eq_ok.mp h
        obtain rfl := putParcel_eq_ok.mp hput
        obtain ⟨rfl, rfl⟩ := pure_eq_ok.mp h
        exact (moves_draw _).trans (refuse_moves q' m { ticket, callbacks, request := q' } fault F)
      · simp only [hframe] at h
        rw [hframe] at hpacket
        -- Neither loading nor framing touches the number that was drawn for the request.
        have number' : q'.takeScratch.session = UInt64.ofNat (s.issuer.drawn + 1) := by
          rw [← number, ← hsession]
          exact congrArg Packet.session hpacket
        exact expectReply_moves (s := { s with issuer := s.issuer.get.2 }) sound
          { ticket, callbacks, request := q'.takeScratch } number' h F

/-- An asynchronous call keeps nothing in hand: what is left of it is in the table, in a wait, or over. -/
theorem callAsync_moves (sound : inner.Sound setup) {m : Outbound} {callbacks : List Program}
    {r : Except Fault Unit} (h : callAsync setup inner m callbacks s = .ok (r, t)) (F : Hands) :
    Moves setup s F t F := by
  unfold callAsync at h
  obtain ⟨ticket, u, hopen, h⟩ := bind_eq_ok.mp h
  obtain ⟨rfl, rfl⟩ := openTicket_eq_ok.mp hopen
  obtain ⟨_, v, hrec, h⟩ := bind_eq_ok.mp h
  obtain rfl := record_eq_ok.mp hrec
  obtain ⟨result, w, hrequest, h⟩ := bind_eq_ok.mp h
  obtain ⟨_, x, hrec, h⟩ := bind_eq_ok.mp h
  obtain rfl := record_eq_ok.mp hrec
  obtain ⟨rfl, rfl⟩ := pure_eq_ok.mp h
  have asked := (Move.ask m callbacks : Move setup s _ _ _).moves F
  have answered := (Move.answer s.tickets result : Move setup w _ _ _).moves F
  simp only [Multiset.zero_add, Multiset.singleton_add] at asked answered
  exact (asked.trans (request_moves sound hrequest F)).trans answered

end Engine
end Switchboard
