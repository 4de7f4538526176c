import Switchboard.Proofs.Chains.Rounds
import Switchboard.Proofs.FrameRoundTrip

/-! Responding to a request. Before anything is taken the packet and its connection are looked at; whatever happens
    after that, one packet leaves the pool and comes back, and one frame is written at most. What is written bears the
    identity of the request and the content of the response, and nothing else of either packet. -/

namespace Switchboard

/-- A packet is the response to a request with some metadata and content, as a layout carries it. -/
structure Packet.Answers (l : Layout) (request : Packet) (metadata : Metadata) (k : Content) (q : Packet) : Prop where
  command : q.command = .response
  session : q.session = request.session
  reserved : q.reserved = request.reserved
  uri : l = .uri → q.uri = request.uri ∧ q.id = 0
  id : l = .id → q.id = request.id ∧ q.uri = ""
  metadata : q.metadata = metadata
  flags : q.flags = if k.isFault then 1 else 0
  carried : q.carried = k.outcome

namespace Packet

variable {p request : Packet} {metadata : Metadata} {k : Content}

/-- The response does not depend on the packet that it is made of. -/
theorem carry_answer : (p.answer request metadata).carry k = request.reply metadata k := rfl

theorem flags_reply : (request.reply metadata k).flags = if k.isFault then 1 else 0 := by
  cases k with
  | value octets =>
    change (0 : UInt8) &&& 0xFE = 0
    decide
  | fault code message =>
    change (0 : UInt8) ||| 1 = 1
    decide

theorem answers_borne (l : Layout) : Answers l request metadata k (l.borne (request.reply metadata k)) := by
  cases l with
  | uri => exact ⟨rfl, rfl, rfl, fun _ => ⟨rfl, rfl⟩, nofun, rfl, flags_reply, carried_carry _ k⟩
  | id => exact ⟨rfl, rfl, rfl, nofun, fun _ => ⟨rfl, rfl⟩, rfl, flags_reply, carried_carry _ k⟩

end Packet

namespace Engine

/-- What responding comes to. Unless there is a request and a connection nothing happens at all. Else a packet is taken
    and given back; between the two a frame is written once if there is one, and what comes of the writing is the
    result. -/
structure Responds (setup : Setup) (inner : Inner) (c : Context) (content : Except Fault Content) (metadata : Metadata)
    (s : Engine) : Prop where
  misplaced : c.parcel.command ≠ .request → (Fault.cannotRespond c.parcel.command).code = .notSupported ∧
    respond setup inner c content metadata s = .ok (.error (.cannotRespond c.parcel.command), s)
  unbound : c.parcel.command = .request → c.bound = false → Fault.contextUnbound.code = .unexpectedCode ∧
    respond setup inner c content metadata s = .ok (.error .contextUnbound, s)
  unencodable {fault : Fault} : c.parcel.command = .request → c.bound = true → content = .error fault →
    ∃ p, respond setup inner c content metadata s = .ok (.error fault, { s with issuer := s.issuer.get.2.put p })
  unframed {k : Content} {fault : Fault} : c.parcel.command = .request → c.bound = true → content = .ok k →
    setup.framing.encode (c.parcel.toPacket.reply metadata k) = .error fault →
    ∃ p, respond setup inner c content metadata s = .ok (.error fault, { s with issuer := s.issuer.get.2.put p })
  written {k : Content} {frame : Bytes} : c.parcel.command = .request → c.bound = true → content = .ok k →
    setup.framing.encode (c.parcel.toPacket.reply metadata k) = .ok frame →
    ∃ p, respond setup inner c content metadata s = (do
      countFrame frame
      react inner (s.line.reactions s.writes frame)
      putParcel p
      pure (s.line.result s.writes frame)) { s with issuer := s.issuer.get.2 }

variable {setup : Setup} {inner : Inner} {s t : Engine} {c : Context} {content : Except Fault Content}
  {metadata : Metadata} {k : Content} {fault : Fault} {frame : Bytes}

/-! ### Before anything is taken -/

theorem respond_of_refused (refused : c.mayRespond = .error fault) :
    respond setup inner c content metadata s = .ok (.error fault, s) := by
  unfold respond
  rw [refused]
  rfl

theorem respond_of_misplaced (other : c.parcel.command ≠ .request) :
    respond setup inner c content metadata s = .ok (.error (.cannotRespond c.parcel.command), s) :=
  respond_of_refused (if_pos other)

theorem respond_of_unbound (request : c.parcel.command = .request) (unbound : c.bound = false) :
    respond setup inner c content metadata s = .ok (.error .contextUnbound, s) := by
  refine respond_of_refused ?_
  simp [Context.mayRespond, request, unbound]

/-! ### A packet is taken -/

section

variable (request : c.parcel.command = .request) (bound : c.bound = true)
include request bound

/-- What is sent away is the response, made of whatever packet was in the pool. -/
theorem respond_eq_sendAway : respond setup inner c content metadata s =
    sendAway setup inner (s.issuer.answer c.parcel.toPacket metadata).1 content { s with issuer := s.issuer.get.2 } := by
  have may : c.mayRespond = .ok () := by simp [Context.mayRespond, request, bound]
  unfold respond
  rw [may]
  rfl

theorem respond_of_unencodable : ∃ p, respond setup inner c (.error fault) metadata s =
    .ok (.error fault, { s with issuer := s.issuer.get.2.put p }) :=
  ⟨_, respond_eq_sendAway request bound⟩

/-- With content that could be encoded the frame of the response is what decides. -/
theorem respond_eq_send : ∃ p : Parcel, p.toPacket = c.parcel.toPacket.reply metadata k ∧
    respond setup inner c (.ok k) metadata s = (do
      let (q, result) ← send setup inner p
      putParcel q
      pure result) { s with issuer := s.issuer.get.2 } :=
  ⟨_, Packet.carry_answer, respond_eq_sendAway request bound⟩

theorem respond_of_unframed (misfit : setup.framing.encode (c.parcel.toPacket.reply metadata k) = .error fault) :
    ∃ p, respond setup inner c (.ok k) metadata s = .ok (.error fault, { s with issuer := s.issuer.get.2.put p }) := by
  obtain ⟨p, own, sent⟩ := respond_eq_send request bound
  rw [← own, ← Parcel.frame_eq_encode] at misfit
  refine ⟨(p.frame setup.framing).1, sent.trans ?_⟩
  unfold send
  rcases framed : p.frame setup.framing with ⟨q, result⟩
  rw [framed] at misfit
  obtain rfl : result = .error fault := misfit
  rfl

theorem respond_of_framed (framed : setup.framing.encode (c.parcel.toPacket.reply metadata k) = .ok frame) :
    ∃ p, respond setup inner c (.ok k) metadata s = (do
      countFrame frame
      react inner (s.line.reactions s.writes frame)
      putParcel p
      pure (s.line.result s.writes frame)) { s with issuer := s.issuer.get.2 } := by
  obtain ⟨p, own, sent⟩ := respond_eq_send request bound
  rw [← own, ← Parcel.frame_eq_encode] at framed
  refine ⟨(p.frame setup.framing).1, sent.trans ?_⟩
  unfold send write
  rcases written : p.frame setup.framing with ⟨q, result⟩
  rw [written] at framed
  obtain rfl : result = .ok frame := framed
  simp only [bind_assoc, pure_bind]
  rfl

end

theorem responds : Responds setup inner c content metadata s where
  misplaced other := ⟨rfl, respond_of_misplaced other⟩
  unbound request unbound := ⟨rfl, respond_of_unbound request unbound⟩
  unencodable request bound unencodable := unencodable ▸ respond_of_unencodable request bound
  unframed request bound encoded misfit := encoded ▸ respond_of_unframed request bound misfit
  written request bound encoded framed := encoded ▸ respond_of_framed request bound framed

/-! ### The result -/

/-- What comes back from writing is the result of the line. -/
theorem result_of_written {p : Parcel} {r result : Except Fault Unit} (h : (do
    countFrame frame
    react inner (s.line.reactions s.writes frame)
    putParcel p
    pure result : EngineM (Except Fault Unit)) s = .ok (r, t)) : r = result := by
  obtain ⟨_, u, -, h⟩ := bind_eq_ok.mp h
  obtain ⟨_, v, -, h⟩ := bind_eq_ok.mp h
  obtain ⟨_, w, -, h⟩ := bind_eq_ok.mp h
  exact (pure_eq_ok.mp h).1.symm

/-- Responding succeeds just when the frame of the response is written. -/
theorem respond_ok_iff {r : Except Fault Unit} (h : respond setup inner c content metadata s = .ok (r, t)) :
    r = .ok () ↔ c.parcel.command = .request ∧ c.bound = true ∧ ∃ k frame, content = .ok k ∧
      setup.framing.encode (c.parcel.toPacket.reply metadata k) = .ok frame ∧ s.line.result s.writes frame = .ok () := by
  by_cases request : c.parcel.command = .request
  · cases bound : c.bound with
    | false =>
      rw [respond_of_unbound request bound] at h
      cases h
      simp
    | true =>
      rcases content with fault | k
      · obtain ⟨p, failed⟩ :=
          (responds : Responds setup inner c (.error fault) metadata s).unencodable request bound rfl
        rw [failed] at h
        cases h
        simp
      rcases framed : setup.framing.encode (c.parcel.toPacket.reply metadata k) with fault | frame
      · obtain ⟨p, failed⟩ := (responds : Responds setup inner c (.ok k) metadata s).unframed request bound rfl framed
        rw [failed] at h
        cases h
        simp [framed]
      · obtain ⟨p, written⟩ := (responds : Responds setup inner c (.ok k) metadata s).written request bound rfl framed
        rw [written] at h
        -- The packet is put back whatever comes of the writing, so the result is that of the line.
        rw [result_of_written (s := { s with issuer := s.issuer.get.2 }) h]
        simp [request, framed]
  · rw [respond_of_misplaced request] at h
    cases h
    simp [request]

/-- Whatever a context holds, whatever is to be sent and however the line takes it: what is no request, or has no
    connection, is refused before anything is taken; else the packet of the response is taken and given back once, its
    frame is written once if there is one, and the result is that of the writing. Whoever reads the frame has a response
    with the identity of the request and nothing else of it, marked for what it carries. The load is as it was, and the
    handler goes on with the same context, so it may respond again. -/
theorem respond_writes_one_response (setup : Setup) (inner : Inner) (c : Context) (content : Except Fault Content)
    (metadata : Metadata) (s : Engine) :
    Responds setup inner c content metadata s ∧
    (∀ r t, respond setup inner c content metadata s = .ok (r, t) →
      (r = .ok () ↔ c.parcel.command = .request ∧ c.bound = true ∧ ∃ k frame, content = .ok k ∧
        setup.framing.encode (c.parcel.toPacket.reply metadata k) = .ok frame ∧
        s.line.result s.writes frame = .ok ())) ∧
    (∀ k frame, setup.framing.encode (c.parcel.toPacket.reply metadata k) = .ok frame →
      ∃ q, setup.framing.decode frame = .ok q ∧ Packet.Answers setup.framing.layout c.parcel.toPacket metadata k q) ∧
    (∀ depth r t, respond setup (nested setup depth) c content metadata s = .ok (r, t) → t.load = s.load) ∧
    ∀ onNext rest, perform setup inner onNext (.respond content metadata rest) c = (do
      let result ← respond setup inner c content metadata
      perform setup inner onNext (rest result) c) := by
  refine ⟨responds, fun r t => respond_ok_iff, fun k frame encoded => ?_, fun depth r t done => ?_, fun _ _ => rfl⟩
  · exact ⟨_, Framing.decode_encode encoded, Packet.answers_borne _⟩
  · have rounds := respond_rounds (nested_round setup depth) c content metadata
    have := ((rounds s r t done (openChains s.journal)).tally rfl).load
    omega

end Engine
end Switchboard
