import Mathlib.Data.List.Induction
import Switchboard.Packet.Content
import Switchboard.Proofs.FrameRoundTrip

/-! What a packet carries, by the history of what was put into it. A step whose value cannot be encoded leaves the
    packet as it was; any other takes the place of all before it, and marks the payload for what it is. So the payload
    and its mark stay together: the last step that succeeds decides what is decoded, at the packet's holder and at
    whoever reads a frame of it. -/

namespace Switchboard

/-- One thing done to the payload of a packet. The values of one history need not be of one type. -/
inductive Filling where
  | value {α : Type} (codec : Codec α) (a : α)
  | fault (code : Code) (message : String)
  | payload {α : Type} (codec : Codec α) (payload : Payload α)

/-- What is to be put into the packet, or why it cannot be encoded. -/
def Filling.content : Filling → Except Fault Content
  | .value codec a | .payload codec (.value a) => (codec.encode a).map .value
  | .fault code message | .payload _ (.fault code message) => .ok (.fault code message)

namespace Packet

/-- The packet once something more is done to its payload, and how that went. -/
def fill (p : Packet) : Filling → Packet × Except Fault Unit
  | .value codec a => p.loadValue codec a
  | .fault code message => (p.loadFault code message, .ok ())
  | .payload codec payload => p.loadPayload codec payload

/-- The packet after all of a history, in its order. -/
def after (p : Packet) (history : List Filling) : Packet := history.foldl (fun q step => (q.fill step).1) p

/-! ### What a history says -/

/-- No step of a history succeeds. -/
def Barren (p : Packet) (history : List Filling) : Prop :=
  ∀ before step later, history = before ++ step :: later → ∃ fault, ((p.after before).fill step).2 = .error fault

/-- The last step of a history that succeeds puts some content into the packet. -/
def Left (p : Packet) (history : List Filling) (c : Content) : Prop :=
  ∃ before step later, history = before ++ step :: later ∧ step.content = .ok c ∧
    ((p.after before).fill step).2 = .ok () ∧ ((p.after before).fill step).1.Barren later

/-- Decoding a packet gives what a history of another left there: a fault with its code and message whatever the codec,
    and else what the codec makes of the octets of the value. -/
structure Tells (p : Packet) (history : List Filling) (q : Packet) : Prop where
  nothing : p.Barren history → q.payload = p.payload ∧ q.flags = p.flags
  value {octets : Bytes} : p.Left history (.value octets) →
    ∀ {α : Type} (codec : Codec α), q.value codec = codec.decode octets
  fault {code : Code} {message : String} : p.Left history (.fault code message) →
    ∀ {α : Type} (codec : Codec α), q.value codec = .error (.stated code message none)

/-- Two packets that differ in their payloads and in the marks of these at most: all other flags are the same. -/
structure SameEnvelope (p q : Packet) : Prop where
  fields : { q with payload := p.payload, flags := p.flags } = p
  flags : q.flags &&& 0xFE = p.flags &&& 0xFE

variable {p q r : Packet} {history before later : List Filling} {step : Filling} {c c' : Content} {fault : Fault}

/-! ### One step -/

theorem fill_eq (p : Packet) (step : Filling) : p.fill step = p.load step.content := by
  cases step with
  | value codec a => rfl
  | fault code message => rfl
  | payload codec payload => cases payload <;> rfl

/-- A step that fails leaves the packet as it was. -/
theorem fill_of_error (failed : (p.fill step).2 = .error fault) : (p.fill step).1 = p := by
  rw [fill_eq] at failed ⊢
  cases content : step.content with
  | ok c =>
    rw [content] at failed
    cases failed
  | error _ => rfl

/-- A step fails just when its value cannot be encoded, whatever packet it meets. -/
theorem fill_error_iff : (∃ fault, (p.fill step).2 = .error fault) ↔ ∃ fault, step.content = .error fault := by
  rw [fill_eq]
  cases step.content with
  | ok c => exact ⟨nofun, nofun⟩
  | error fault => exact ⟨fun _ => ⟨fault, rfl⟩, fun _ => ⟨fault, rfl⟩⟩

theorem fill_of_ok (content : step.content = .ok c) : p.fill step = (p.carry c, .ok ()) := by
  rw [fill_eq, content]
  rfl

theorem markFault_flags (p : Packet) (on : Bool) : (p.markFault on).flags &&& 0xFE = p.flags &&& 0xFE := by
  cases on with
  | true =>
    change (p.flags ||| 1) &&& 0xFE = p.flags &&& 0xFE
    rw [← UInt8.toBitVec_inj]
    ext i
    cases i with
    | zero => simp
    | succ i => simp
  | false =>
    change p.flags &&& 0xFE &&& 0xFE = p.flags &&& 0xFE
    rw [← UInt8.toBitVec_inj]
    simp [BitVec.and_assoc]

namespace SameEnvelope

theorem refl (p : Packet) : p.SameEnvelope p := ⟨rfl, rfl⟩

theorem trans (first : p.SameEnvelope q) (second : q.SameEnvelope r) : p.SameEnvelope r where
  fields := by
    rw [← second.fields] at first
    exact first.fields
  flags := second.flags.trans first.flags

theorem carry (p : Packet) (c : Content) : p.SameEnvelope (p.carry c) := ⟨rfl, p.markFault_flags c.isFault⟩

theorem fill (p : Packet) (step : Filling) : p.SameEnvelope (p.fill step).1 := by
  rw [fill_eq]
  cases step.content with
  | ok c => exact carry p c
  | error fault => exact refl p

/-- What is read off frames of two such packets differs no more than they do. -/
theorem borne (same : p.SameEnvelope q) (l : Layout) : (l.borne p).SameEnvelope (l.borne q) where
  fields := by
    rw [← same.fields]
    cases l <;> rfl
  flags := by cases l <;> exact same.flags

end SameEnvelope

/-! ### All of a history -/

theorem after_append : p.after (before ++ later) = (p.after before).after later := List.foldl_append

theorem after_concat : p.after (before ++ [step]) = ((p.after before).fill step).1 := after_append

theorem SameEnvelope.after (p : Packet) (history : List Filling) : p.SameEnvelope (p.after history) := by
  induction history using List.reverseRecOn with
  | nil => exact .refl p
  | append_singleton before step ih =>
    rw [after_concat]
    exact ih.trans (.fill _ step)

/-- Whether a history is barren does not depend on the packet. -/
theorem barren_iff : p.Barren history ↔ ∀ step ∈ history, ∃ fault, step.content = .error fault := by
  unfold Barren
  simp only [fill_error_iff]
  constructor
  · intro barren step mem
    obtain ⟨before, later, whole⟩ := List.append_of_mem mem
    exact barren before step later whole
  · rintro failing before step later rfl
    exact failing step (List.mem_append_right before List.mem_cons_self)

theorem Barren.after (barren : p.Barren history) : p.after history = p := by
  induction history using List.reverseRecOn with
  | nil => rfl
  | append_singleton before step ih =>
    have failing := barren_iff.mp barren
    have same : p.after before = p := ih (barren_iff.mpr fun s mem => failing s (List.mem_append_left _ mem))
    obtain ⟨fault, failed⟩ := barren before step [] rfl
    rw [after_concat, fill_of_error failed, same]

/-- The last step that succeeds leaves its content in the packet. -/
theorem Left.after (left : p.Left history c) : ∃ q : Packet, p.after history = q.carry c := by
  obtain ⟨before, step, later, rfl, content, -, barren⟩ := left
  refine ⟨p.after before, ?_⟩
  rw [after_append]
  calc (p.after before).after (step :: later)
      = (((p.after before).fill step).1).after later := rfl
    _ = ((p.after before).fill step).1 := barren.after
    _ = (p.after before).carry c := by rw [fill_of_ok content]

theorem barren_or_left (p : Packet) (history : List Filling) : p.Barren history ∨ ∃ c, p.Left history c := by
  induction history using List.reverseRecOn with
  | nil => exact .inl (barren_iff.mpr (List.forall_mem_nil _))
  | append_singleton before step ih =>
    cases content : step.content with
    | ok c =>
      refine .inr ⟨c, before, step, [], rfl, content, ?_, barren_iff.mpr (List.forall_mem_nil _)⟩
      rw [fill_of_ok content]
    | error fault =>
      have last : ∀ s ∈ [step], ∃ fault, s.content = .error fault :=
        List.forall_mem_singleton.mpr ⟨fault, content⟩
      -- A failure leaves what there was before it, if there was anything.
      rcases ih with barren | ⟨c, first, own, later, rfl, put, done, barren⟩
      · exact .inl (barren_iff.mpr (List.forall_mem_append.mpr ⟨barren_iff.mp barren, last⟩))
      · refine .inr ⟨c, first, own, later ++ [step], by simp, put, done, ?_⟩
        exact barren_iff.mpr (List.forall_mem_append.mpr ⟨barren_iff.mp barren, last⟩)

/-- A packet that carries what a packet carries after a history tells of the history. -/
theorem Tells.of_after (payload : q.payload = (p.after history).payload) (flags : q.flags = (p.after history).flags) :
    p.Tells history q := by
  have carried : q.carried = (p.after history).carried := by
    unfold carried isFault
    rw [payload, flags]
  have decoded : ∀ {c}, p.Left history c → q.carried = c.outcome := by
    intro c left
    obtain ⟨r, after⟩ := left.after
    rw [carried, after, carried_carry]
  refine ⟨fun barren => ?_, fun left α codec => ?_, fun left α codec => ?_⟩
  · rw [payload, flags, barren.after]
    exact ⟨rfl, rfl⟩
  · unfold Packet.value
    rw [decoded left]
    rfl
  · unfold Packet.value
    rw [decoded left]
    rfl

/-- A step that fails leaves the packet as it was. After any history the last step that succeeded decides what is decoded,
    with any codec: the very fault that it put in, or what the codec makes of its value's octets; and where there is
    none the packet is as it was. Nothing but the payload and its mark ever changes. All this holds just as well of what
    is read off a frame of the packet, which lacks no more than the routing key that the layout does not carry. -/
theorem payload_follows_its_history (p : Packet) (history : List Filling) :
    (∀ (q : Packet) (step : Filling) (fault : Fault), (q.fill step).2 = .error fault → (q.fill step).1 = q) ∧
    (p.Barren history ∧ p.after history = p ∨ ∃ c, p.Left history c) ∧
    p.Tells history (p.after history) ∧ p.SameEnvelope (p.after history) ∧
    ∀ (f : Framing) (sender reader : Parcel) (frame : Bytes), sender.toPacket = p.after history →
      (sender.frame f).2 = .ok frame →
      (reader.unframe f frame).2 = .ok () ∧
      p.Tells history (reader.unframe f frame).1.toPacket ∧
      (f.layout.borne p).SameEnvelope (reader.unframe f frame).1.toPacket ∧
      ((f.layout = .uri → p.id = 0) → (f.layout = .id → p.uri = "") →
        p.SameEnvelope (reader.unframe f frame).1.toPacket) := by
  have envelope := SameEnvelope.after p history
  refine ⟨fun q step fault => fill_of_error, ?_, .of_after rfl rfl, envelope, ?_⟩
  · rcases barren_or_left p history with barren | left
    · exact .inl ⟨barren, barren.after⟩
    · exact .inr left
  intro f sender reader frame own framed
  have read := Parcel.unframe_of_frame framed reader
  rw [own] at read
  have far : (f.layout.borne p).SameEnvelope (reader.unframe f frame).1.toPacket := by
    rw [read]
    exact envelope.borne f.layout
  refine ⟨by rw [read], ?_, far, fun uri id => ?_⟩
  · rw [read]
    refine .of_after ?_ ?_ <;> cases f.layout <;> rfl
  · rwa [Layout.borne_eq_self uri id] at far

/-- A codec for the octets themselves, of which there may be four at most. -/
def quartets : Codec Bytes where
  encode octets := if octets.length ≤ 4 then .ok octets else .error (.uriTooLong "")
  decode := .ok

/-- A value that cannot be encoded does not take the place of a fault. -/
example (code : Code) (message : String) :
    (blank.after [.value quartets [1, 2], .fault code message, .payload quartets (.value [1, 2, 3, 4, 5])]).value quartets =
      .error (.stated code message none) :=
  (Tells.of_after rfl rfl).fault
    ⟨[_], _, [_], rfl, rfl, rfl, barren_iff.mpr (List.forall_mem_singleton.mpr ⟨_, rfl⟩)⟩ quartets

end Packet
end Switchboard
