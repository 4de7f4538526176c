import Switchboard.Proofs.Link.Exchange

/-! Where a message leads at the other end. Its frame bears one routing key, of the kind that the layout has room for. A
    route of that kind leads to the same handlers as it was given; of a route of the other kind nothing is left, and the
    message arrives without a key. -/

namespace Switchboard

/-- A packet is filled with a message: its value, its metadata, its reserved octet and its route. -/
structure Outbound.Fills (m : Outbound) (q : Packet) : Prop where
  payload : m.body = .ok q.payload
  metadata : q.metadata = m.metadata
  reserved : q.reserved = m.reserved
  route : q.setRoute m.route = q

/-- A frame is that of a message. -/
def Outbound.Framed (m : Outbound) (f : Framing) (frame : Bytes) : Prop := ∃ q, m.Fills q ∧ f.encode q = .ok frame

/-- What arrives of a message: all of it but its route, which leads where it was to lead if the layout carries it, and
    else to where no key leads. -/
structure Outbound.Arrives (m : Outbound) (l : Layout) (q : Packet) : Prop where
  payload : m.body = .ok q.payload
  metadata : q.metadata = m.metadata
  reserved : q.reserved = m.reserved
  suited : l.Suits m.route → ∀ r : Router Program, r.resolve q = r.resolve (Packet.blank.setRoute m.route)
  unsuited : ¬l.Suits m.route → ∀ r : Router Program, r.resolve q = r.resolve .blank

/-! ### Keys -/

theorem Router.resolve_congr {α : Type} {p q : Packet} (r : Router α) (uri : p.uri = q.uri) (id : p.id = q.id) :
    r.resolve p = r.resolve q := by
  unfold resolve byId
  rw [uri, id]

namespace Layout

variable {l : Layout} {route : Route}

/-- A frame leads to the handlers of the key that its layout carries, whatever else is in it. -/
theorem resolve_borne {α : Type} (l : Layout) (q : Packet) (route : Route) (r : Router α) :
    r.resolve (l.borne (q.setRoute route)) = r.resolve (l.borne (Packet.blank.setRoute route)) := by
  cases l <;> cases route <;> exact r.resolve_congr rfl rfl

theorem borne_of_suits (suits : l.Suits route) : l.borne (Packet.blank.setRoute route) = Packet.blank.setRoute route := by
  cases l <;> cases route <;> first | rfl | exact suits.elim

theorem borne_of_not_suits (other : ¬l.Suits route) : l.borne (Packet.blank.setRoute route) = .blank := by
  cases l <;> cases route <;> first | rfl | exact absurd trivial other

end Layout

theorem Outbound.Fills.arrives {m : Outbound} {q : Packet} (fills : m.Fills q) (l : Layout) :
    m.Arrives l (l.borne q) where
  payload := by cases l <;> exact fills.payload
  metadata := by cases l <;> exact fills.metadata
  reserved := by cases l <;> exact fills.reserved
  suited suits r := by rw [← fills.route, l.resolve_borne, Layout.borne_of_suits suits]
  unsuited other r := by rw [← fills.route, l.resolve_borne, Layout.borne_of_not_suits other]

namespace Engine

variable {α β : Type} {setup : Setup} {inner : Inner} {m : Outbound} {s t u : Engine} {P : Bytes → Prop}

/-! ### Before the writing -/

/-- Work says nothing on the line, wherever it begins. -/
def Mute (post : α → Prop) (w : EngineM α) : Prop :=
  ∀ s a t, w s = .ok (a, t) → t.line = s.line ∧ written t.journal = written s.journal ∧ post a

namespace Mute

variable {post : α → Prop} {post' : β → Prop} {w : EngineM α} {k : α → EngineM β}

theorem pure {a : α} (holds : post a) : Mute post (Pure.pure a) := by
  intro s b t h
  obtain ⟨rfl, rfl⟩ := pure_eq_ok.mp h
  exact ⟨rfl, rfl, holds⟩

theorem get : Mute (fun _ => True) get := by
  intro s a t h
  obtain ⟨rfl, rfl⟩ := get_eq_ok.mp h
  exact ⟨rfl, rfl, trivial⟩

theorem bind (first : Mute post w) (rest : ∀ a, post a → Mute post' (k a)) : Mute post' (w >>= k) := by
  intro s b u h
  obtain ⟨a, t, hw, h⟩ := bind_eq_ok.mp h
  obtain ⟨line, silent, holds⟩ := first s a t hw
  obtain ⟨line', silent', holds'⟩ := rest a holds t b u h
  exact ⟨line'.trans line, silent'.trans silent, holds'⟩

end Mute

theorem record_mute {e : Entry} (silent : e.frame? = none) : Mute (fun _ => True) (record e) := by
  intro s x t h
  obtain rfl := record_eq_ok.mp h
  exact ⟨rfl, List.filterMap_cons_none silent, trivial⟩

theorem putParcel_mute (p : Parcel) : Mute (fun _ => True) (putParcel p) := by
  intro s x t h
  obtain rfl := putParcel_eq_ok.mp h
  exact ⟨rfl, rfl, trivial⟩

theorem putBack_mute (p : Parcel) (a : α) : Mute (fun _ => True) (putParcel p >>= fun _ => pure a) :=
  (putParcel_mute p).bind fun _ _ => .pure trivial

theorem openTicket_mute : Mute (fun _ => True) openTicket := by
  intro s n t h
  obtain ⟨-, rfl⟩ := openTicket_eq_ok.mp h
  exact ⟨rfl, rfl, trivial⟩

theorem takeMail_mute (ticket : Nat) : Mute (fun _ => True) (takeMail ticket) := by
  intro s found t h
  obtain ⟨-, rfl⟩ := takeMail_eq_ok.mp h
  exact ⟨rfl, rfl, trivial⟩

theorem discard_mute (n : UInt64) : Mute (fun _ => True) (discard n) := by
  intro s found t h
  obtain ⟨-, rfl⟩ := discard_eq_ok.mp h
  refine ⟨rfl, ?_, trivial⟩
  unfold strike
  cases s.table.find n <;> rfl

theorem register_mute (entry : Session) (request : Packet) : Mute (fun _ => True) (register entry request) := by
  intro s r t h
  rcases register_cases h with ⟨-, -, rfl⟩ | ⟨-, -, -, rfl⟩ <;> exact ⟨rfl, rfl, trivial⟩

theorem takeUp_mute (setup : Setup) (pending : Pending) (limit : Duration) :
    Mute (fun _ => True) (takeUp setup pending limit) := by
  intro s x t h
  unfold takeUp at h
  cases spawner : setup.spawner <;> rw [spawner] at h <;> obtain rfl := modify_eq_ok.mp h <;> exact ⟨rfl, rfl, trivial⟩

/-- What is taken out for a message is filled with it once its value is in it. -/
theorem issue_mute (command : Command) (m : Outbound) :
    Mute (fun p => ∀ q x, p.load (m.body.map .value) = (q, .ok x) → m.Fills q.toPacket) (issue command m) := by
  intro s p t h
  simp only [issue, modifyGet_eq_ok, Issuer.issue, Issuer.nextSession, Issuer.get, Prod.mk.injEq] at h
  obtain ⟨rfl, rfl⟩ := h
  refine ⟨rfl, rfl, fun q x loaded => ?_⟩
  rcases body : m.body with fault | octets
  · rw [body] at loaded
    cases loaded
  · rw [body] at loaded
    cases loaded
    cases route : m.route <;> exact ⟨body, rfl, rfl, by rw [route]; rfl⟩

theorem keepCall_mute (c : Call) : Mute (fun _ => True) (keepCall c) := by
  intro s x t h
  obtain rfl := modify_eq_ok.mp h
  exact ⟨rfl, rfl, trivial⟩

theorem finishSession_mute (ticket : Nat) (session : UInt64) (result : Except Fault Bytes) :
    Mute (fun _ => True) (finishSession ticket session result) := by
  have finished : Mute (fun _ => True) (finish ticket result) := (record_mute rfl).bind fun _ _ => .pure trivial
  refine finished.bind fun result _ => ?_
  exact (discard_mute session).bind fun _ _ => (takeMail_mute ticket).bind fun _ _ => .pure trivial

theorem awaitReply_mute (now : Nat) (c : Call) (session : UInt64) (deadline : Option (Nat × Duration)) :
    Mute (fun _ => True) (awaitReply now c session deadline) := by
  refine (takeMail_mute c.ticket).bind fun found _ => ?_
  cases found with
  | some p => exact (putParcel_mute p).bind fun _ _ => finishSession_mute _ _ _
  | none =>
    refine Mute.get.bind fun u _ => ?_
    split
    · exact finishSession_mute _ _ _
    cases passed now deadline with
    | some limit => exact (record_mute rfl).bind fun _ _ => finishSession_mute _ _ _
    | none => exact (keepCall_mute _).bind fun _ _ => .pure trivial

/-! ### The first frame -/

/-- The first frame that work writes, if it writes any, is one of these; frames are noted where the line keeps them. -/
def Opens (P : Bytes → Prop) (w : EngineM α) : Prop :=
  ∀ s a t, s.line.kept = true → w s = .ok (a, t) →
    written t.journal = written s.journal ∨ ∃ ws frame, written t.journal = ws ++ frame :: written s.journal ∧ P frame

namespace Opens

variable {post : α → Prop} {w : EngineM α} {k : α → EngineM β}

theorem of_mute (mute : Mute (fun _ => True) w) : Opens P w := fun s a t _ h => .inl (mute s a t h).2.1

/-- What comes before the first frame says nothing. -/
theorem bind (first : Mute post w) (rest : ∀ a, post a → Opens P (k a)) : Opens P (w >>= k) := by
  intro s b u kept h
  obtain ⟨a, t, hw, h⟩ := bind_eq_ok.mp h
  obtain ⟨line, silent, holds⟩ := first s a t hw
  rw [← silent]
  exact rest a holds t b u (line ▸ kept) h

theorem map (opens : Opens P w) (g : α → β) : Opens P (g <$> w) := by
  intro s b t kept h
  obtain ⟨a, hw, rfl⟩ := map_eq_ok.mp h
  exact opens s a t kept hw

/-- What comes after the first frame does not matter as long as it says nothing. -/
theorem mute (opens : Opens P w) (rest : ∀ a, Mute (fun _ => True) (k a)) : Opens P (w >>= k) := by
  intro s b u kept h
  obtain ⟨a, t, hw, h⟩ := bind_eq_ok.mp h
  rw [(rest a t b u h).2.1]
  exact opens s a t kept hw

end Opens

variable (sound : inner.Sound setup)
include sound

theorem write_opens {frame : Bytes} (own : P frame) : Opens P (write inner frame) := by
  intro s r t kept h
  obtain ⟨_, _, hget, h⟩ := bind_eq_ok.mp h
  obtain ⟨rfl, rfl⟩ := get_eq_ok.mp hget
  obtain ⟨_, u, hcount, h⟩ := bind_eq_ok.mp h
  obtain ⟨_, v, hreact, h⟩ := bind_eq_ok.mp h
  obtain ⟨-, rfl⟩ := pure_eq_ok.mp h
  obtain ⟨es, journal⟩ := (react_moves sound hreact 0).journal
  obtain rfl := modify_eq_ok.mp hcount
  simp only [kept, if_true] at journal
  refine .inr ⟨written es, frame, ?_, own⟩
  rw [journal]
  exact List.filterMap_append ..

/-- The frame of a packet that is filled with a message. -/
theorem send_opens {p : Parcel} (fills : m.Fills p.toPacket) :
    Opens (m.Framed setup.framing) (send setup inner p) := by
  have encoded := Parcel.frame_eq_encode setup.framing p
  unfold send
  rcases framed : p.frame setup.framing with ⟨q, fault | frame⟩
  · exact .of_mute (.pure trivial)
  · rw [framed] at encoded
    exact (write_opens sound ⟨p.toPacket, fills, encoded.symm⟩).mute fun _ => .pure trivial

theorem sendAway_opens {p : Parcel} (fills : ∀ q x, p.load (m.body.map .value) = (q, .ok x) → m.Fills q.toPacket) :
    Opens (m.Framed setup.framing) (sendAway setup inner p (m.body.map .value)) := by
  unfold sendAway
  rcases loaded : p.load (m.body.map .value) with ⟨q, fault | x⟩
  · exact .of_mute (putBack_mute q _)
  · refine (send_opens sound (fills q x loaded)).mute fun sent => ?_
    exact putBack_mute sent.1 _

theorem notify_opens (m : Outbound) : Opens (m.Framed setup.framing) (notify setup inner m) :=
  .bind (issue_mute .notify m) fun _ fills => sendAway_opens sound fills

theorem expectReply_opens (m : Outbound) (pending : Pending) {frame : Bytes} (own : P frame) :
    Opens P (expectReply setup inner m pending frame) := by
  refine .bind (register_mute _ _) fun answer _ => ?_
  cases answer with
  | refused => exact .of_mute (putBack_mute _ _)
  | accepted =>
    refine (write_opens sound own).mute fun result => ?_
    rcases result with fault | _ <;> cases m.timeout
    · refine (record_mute rfl).bind fun _ _ => (discard_mute _).bind fun found _ => ?_
      rcases found with _ | ⟨ticket, listening⟩ | orphan
      · exact .pure trivial
      · exact .pure trivial
      · exact putBack_mute _ _
    · refine (record_mute rfl).bind fun _ _ => (discard_mute _).bind fun _ _ => ?_
      exact (takeMail_mute _).bind fun _ _ => putBack_mute _ _
    · exact .pure trivial
    · exact (takeUp_mute setup pending _).bind fun _ _ => .pure trivial

theorem request_opens (m : Outbound) (callbacks : List Program) (ticket : Nat) :
    Opens (m.Framed setup.framing) (request setup inner m callbacks ticket) := by
  refine .bind .get fun s _ => ?_
  dsimp only
  split
  · exact .of_mute (.pure trivial)
  refine .bind (issue_mute .request m) fun p fills => ?_
  rcases loaded : p.load (m.body.map .value) with ⟨q, fault | x⟩
  · exact .of_mute (putBack_mute q _)
  have encoded := Parcel.frame_eq_encode setup.framing q
  rcases framed : q.frame setup.framing with ⟨q', fault | frame⟩ <;> dsimp only <;> rw [framed]
  · exact .of_mute (putBack_mute q' _)
  · rw [framed] at encoded
    exact expectReply_opens sound m _ ⟨q.toPacket, fills q x loaded, encoded.symm⟩

theorem callAsync_opens (m : Outbound) (callbacks : List Program) :
    Opens (m.Framed setup.framing) (callAsync setup inner m callbacks) := by
  refine .bind openTicket_mute fun ticket _ => .bind (record_mute rfl) fun _ _ => ?_
  refine (request_opens sound m callbacks ticket).mute fun result => ?_
  exact (record_mute rfl).bind fun _ _ => .pure trivial

theorem sendCall_opens (now : Nat) (c : Call) : Opens (c.message.Framed setup.framing) (sendCall setup inner now c) := by
  have refused : ∀ (q : Parcel) (result : Except Fault Bytes),
      Mute (fun _ => True) (putParcel q >>= fun _ => finish c.ticket result) := fun q result =>
    (putParcel_mute q).bind fun _ _ => (record_mute rfl).bind fun _ _ => .pure trivial
  refine .bind (issue_mute .request c.message) fun p fills => ?_
  rcases loaded : p.load (c.message.body.map .value) with ⟨q, fault | x⟩
  · exact .of_mute (refused q _)
  refine .bind (register_mute _ _) fun answer _ => ?_
  cases answer with
  | refused => exact .of_mute (refused q _)
  | accepted =>
    refine (send_opens sound (fills q x loaded)).mute fun ⟨q', result⟩ => ?_
    refine (putParcel_mute q').bind fun _ _ => ?_
    cases result with
    | error fault => exact (record_mute rfl).bind fun _ _ => finishSession_mute _ _ _
    | ok => exact (record_mute rfl).bind fun _ _ => awaitReply_mute _ _ _ _

/-- The message of the call with a ticket in progress. -/
theorem pollCall_opens (now : Nat) {ticket : Nat} {c : Call} (found : s.calls.find? (fun c => c.ticket == ticket) = some c)
    {r : Option (Except Fault Bytes)} (kept : s.line.kept = true) (h : pollCall setup inner now ticket s = .ok (r, t)) :
    written t.journal = written s.journal ∨
      ∃ ws frame, written t.journal = ws ++ frame :: written s.journal ∧ c.message.Framed setup.framing frame := by
  unfold pollCall at h
  obtain ⟨found', u, htake, h⟩ := bind_eq_ok.mp h
  obtain ⟨rfl, rfl⟩ := Prod.mk.injEq .. ▸ modifyGet_eq_ok.mp htake
  rw [found] at h
  cases phase : c.phase with
  | created =>
    simp only [phase] at h
    exact sendCall_opens sound now c { s with calls := s.calls.filter fun c => c.ticket != ticket } r t kept h
  | waiting session deadline =>
    simp only [phase] at h
    exact .inl (awaitReply_mute now c session deadline _ r t h).2.1

end Engine

namespace Engine

variable {setup : Setup} {depth : Nat} {s t : Engine} {a : Act} {o : Outcome} {m : Outbound} {ws : List Bytes}
  {frame : Bytes}

/-- A message is to be sent: it is told to whom it may concern, or a call is made with it. -/
inductive Act.Posts (s : Engine) : Act → Outbound → Prop where
  | notify (m : Outbound) : Posts s (.notify m) m
  | callAsync (m : Outbound) (callbacks : List Program) : Posts s (.callAsync m callbacks) m
  | call (now : Nat) {ticket : Nat} {c : Call} (found : s.calls.find? (fun c => c.ticket == ticket) = some c) :
    Posts s (.pollCall now ticket) c.message

/-- The first frame that is written when a message is sent is the frame of the message. -/
theorem act_opens (posts : a.Posts s m) (kept : s.line.kept = true) (ended : act setup depth a s = .ok (o, t)) :
    written t.journal = written s.journal ∨
      ∃ ws frame, written t.journal = ws ++ frame :: written s.journal ∧ m.Framed setup.framing frame := by
  have sound := nested_sound setup depth
  cases posts with
  | notify m => exact (notify_opens sound m).map .done s o t kept ended
  | callAsync m callbacks => exact (callAsync_opens sound m callbacks).map .done s o t kept ended
  | call now found =>
    obtain ⟨r, polled, -⟩ := map_eq_ok.mp ended
    exact pollCall_opens sound now found kept polled

/-- Whoever has the same framing reads from the first frame that an operation writes a packet with all of its message but
    the route. If the layout carries routes of its kind, the packet leads to the handlers that the route leads to, and to
    none exactly if the route does; a route of the other kind is lost, and the packet leads to where a packet without a
    key does. -/
theorem routes_lead_where_the_layout_carries_them (posts : a.Posts s m) (kept : s.line.kept = true)
    (ended : act setup depth a s = .ok (o, t)) (wrote : written t.journal = ws ++ frame :: written s.journal) :
    ∃ q, setup.framing.decode frame = .ok q ∧ m.Arrives setup.framing.layout q := by
  obtain ⟨ws', frame', wrote', q, fills, encoded⟩ := (act_opens posts kept ended).resolve_left fun silent => by
    have := congrArg List.length (silent.symm.trans wrote)
    simp only [List.length_append, List.length_cons] at this
    omega
  have same : ws ++ [frame] ++ written s.journal = ws' ++ [frame'] ++ written s.journal := by
    simpa using wrote.symm.trans wrote'
  -- The frame is the last of those that were written, so both are told to be it.
  obtain ⟨-, last⟩ := List.append_inj' (List.append_cancel_right same) rfl
  cases last
  exact ⟨setup.framing.layout.borne q, eq_ok_of_toOption (Framing.packet?_encode encoded), fills.arrives _⟩

/-- A notice to a text key. -/
def greeting : Outbound := { route := .uri "r", body := .ok [42] }

/-- A notice to a number. -/
def ringing : Outbound := { route := .id 7, body := .ok [42] }

/-- Frames carry numbers. -/
def numbered : Setup := { framing := { layout := .id } }

/-- A router that knows both keys. -/
def acquainted : Router Program := { uris := [("r", [.done])], ids := [(7, [.next .done])] }

def greetingFrame : Bytes := [0, 0, 0, 25, 0, 0, 0, 0, 0, 0, 0, 0, 0, 0, 0, 1, 0, 0, 0, 1, 0, 0, 0, 0, 42]

def ringingFrame : Bytes := [0, 0, 0, 25, 0, 0, 0, 0, 0, 0, 0, 0, 0, 0, 0, 1, 0, 0, 0, 1, 0, 0, 0, 7, 42]

/-- A notice that is written is the first that a connection writes. -/
theorem notice_of_run (m : Outbound) (frame : Bytes)
    (h : ((notify numbered (nested numbered 0) m {}).toOption.map fun x => (x.1, written x.2.journal)) =
      some (.ok (), [frame])) :
    ∃ t, act numbered 0 (.notify m) {} = .ok (.done (.ok ()), t) ∧ written t.journal = [frame] := by
  obtain ⟨⟨r, t⟩, ran, same⟩ := Option.map_eq_some_iff.mp h
  obtain ⟨rfl, wrote⟩ := Prod.mk.inj same
  exact ⟨t, map_eq_ok.mpr ⟨_, eq_ok_of_toOption ran, rfl⟩, wrote⟩

theorem ringing_leads_where_it_is_to_lead : ∃ q, numbered.framing.decode ringingFrame = .ok q ∧
    acquainted.resolve q = .ok [.next .done] := by
  obtain ⟨t, ended, wrote⟩ := notice_of_run ringing ringingFrame (by decide +kernel)
  have wrote : written t.journal = [] ++ ringingFrame :: written [] := wrote
  obtain ⟨q, decoded, arrives⟩ := routes_lead_where_the_layout_carries_them (.notify ringing) rfl ended wrote
  exact ⟨q, decoded, arrives.suited trivial acquainted⟩

/-- Where frames carry numbers, a notice to a text key is written without a key and leads to no handler, though there is
    one at the other end for its key. -/
theorem text_keys_are_lost : ∃ (t : Engine) (q : Packet),
    act numbered 0 (.notify greeting) {} = .ok (.done (.ok ()), t) ∧ written t.journal = [greetingFrame] ∧
    numbered.framing.decode greetingFrame = .ok q ∧ acquainted.resolve q = .error (.noRoute "" 0) ∧
    acquainted.resolve (Packet.blank.setRoute greeting.route) = .ok [.done] := by
  obtain ⟨t, ended, wrote⟩ := notice_of_run greeting greetingFrame (by decide +kernel)
  have decoded : numbered.framing.decode greetingFrame = .ok { session := 1, payload := [42] } :=
    eq_ok_of_toOption (by decide +kernel)
  exact ⟨t, _, ended, wrote, decoded, rfl, rfl⟩

end Engine
end Switchboard
