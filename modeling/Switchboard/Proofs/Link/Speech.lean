import Switchboard.Proofs.FrameRoundTrip
import Switchboard.Proofs.Engine.Reachable

/-! What a connection says on its line. Its journal tells which frames it wrote and which responses it heard; every
    request among the frames is written right after it was registered, and bears the message of its call. Whatever is
    done with a connection, it writes responses only where a handler responds to a request, and hears a response only
    where one arrives. -/

namespace Switchboard

/-! ### What a journal says of the line -/

def Entry.frame? : Entry → Option Bytes
  | .wrote frame => some frame
  | _ => none

def Entry.heard? : Entry → Option Packet
  | .matched _ p | .unmatched p => some p
  | _ => none

def Entry.enrolled? : Entry → Option Packet
  | .registered _ request => some request
  | _ => none

/-- The frames that were written, the latest first. -/
def written (J : List Entry) : List Bytes := J.filterMap Entry.frame?

/-- The responses that were intercepted, the latest first. -/
def heard (J : List Entry) : List Packet := J.filterMap Entry.heard?

/-- The requests that were registered, the latest first. -/
def enrolled (J : List Entry) : List Packet := J.filterMap Entry.enrolled?

namespace Framing

/-- The packet that whoever reads a frame has. -/
def packet? (f : Framing) (frame : Bytes) : Option Packet := (f.decode frame).toOption

/-- The request that a frame stands for. -/
def request? (f : Framing) (frame : Bytes) : Option Packet := (f.packet? frame).filter (·.command = .request)

/-- The response that a frame stands for. -/
def response? (f : Framing) (frame : Bytes) : Option Packet := (f.packet? frame).filter (·.command = .response)

variable {f : Framing} {frame : Bytes} {q : Packet}

theorem packet?_encode (encoded : f.encode q = .ok frame) : f.packet? frame = some (f.layout.borne q) := by
  unfold packet?
  rw [decode_encode encoded]
  rfl

end Framing

@[simp] theorem Layout.command_borne (l : Layout) (q : Packet) : (l.borne q).command = q.command := by cases l <;> rfl

@[simp] theorem Layout.session_borne (l : Layout) (q : Packet) : (l.borne q).session = q.session := by cases l <;> rfl

/-- What a packet carries does not depend on the layout of its frame. -/
@[simp] theorem Layout.carried_borne (l : Layout) (q : Packet) : (l.borne q).carried = q.carried := by cases l <;> rfl

/-! ### Replies -/

/-- The packet that responds to a request. -/
def Packet.reply (request : Packet) (metadata : Metadata) (c : Content) : Packet :=
  (Packet.blank.answer request metadata).carry c

/-- The response that a handler wrote, if it could be written. -/
def Packet.replied? (l : Layout) (request : Packet) (metadata : Metadata) :
    Except Fault Content → Except Fault Unit → Option Packet
  | .ok c, .ok () => some (l.borne (request.reply metadata c))
  | _, _ => none

/-! ### What is said -/

/-- A packet is the request of a message: it is one, and it has the message's value, metadata, reserved octet and
    route. -/
structure Outbound.Drafts (m : Outbound) (q : Packet) : Prop where
  command : q.command = .request
  body : m.body = q.carried
  payload : q.carried = .ok q.payload
  metadata : q.metadata = m.metadata
  reserved : q.reserved = m.reserved
  route : q.setRoute m.route = q

/-- An entry is true to what was said before it: requests are registered for calls that were made, they are written
    right after that, and they are not written only because they do not fit. -/
def Entry.Faithful (f : Framing) (J : List Entry) : Entry → Prop
  | .registered ticket q => ∃ made : Made, made.entry ticket ∈ J ∧ made.message.Drafts q
  | .wrote frame => ∃ q, f.encode q = .ok frame ∧
    (q.command = .request → ∃ ticket earlier, J = .registered ticket q :: earlier)
  | .unsent ticket fault => ∃ q earlier, J = .registered ticket q :: earlier ∧ f.encode q = .error fault
  | _ => True

/-- The last thing that happened was not that a request was registered. -/
def Rested (J : List Entry) : Prop := ∀ ticket q earlier, J ≠ .registered ticket q :: earlier

/-- After a journal an entry may be made: it is faithful, and a request that was just registered is dealt with first. -/
structure Entry.Apt (f : Framing) (J : List Entry) (e : Entry) : Prop where
  faithful : e.Faithful f J
  prompt : ∀ {ticket q earlier}, J = .registered ticket q :: earlier →
    (∃ frame, e = .wrote frame ∧ f.encode q = .ok frame) ∨ ∃ fault, e = .unsent ticket fault

/-- An entry says nothing on the line, and may be made whatever was said before. -/
def Entry.Wordless : Entry → Prop
  | .wrote _ | .matched _ _ | .unmatched _ | .registered _ _ | .unsent _ _ => False
  | _ => True

/-- Every entry of a journal was apt when it was made. -/
def Worded (f : Framing) : List Entry → Prop
  | [] => True
  | e :: earlier => e.Apt f earlier ∧ Worded f earlier

theorem Worded.drop {f : Framing} {J K : List Entry} (worded : Worded f (K ++ J)) : Worded f J := by
  induction K with
  | nil => exact worded
  | cons e K ih => exact ih worded.2

/-- A program answers what it is given and takes in no frames itself, and so do all callbacks that it leaves. -/
inductive Program.Sincere : Program → Prop where
  | done : Sincere .done
  | next {rest} (then_ : rest.Sincere) : Sincere (.next rest)
  | abort {rest} (then_ : rest.Sincere) : Sincere (.abort rest)
  | edit {change rest} (command : ∀ p : Packet, (change p).command = p.command)
    (session : ∀ p : Packet, (change p).session = p.session) (then_ : rest.Sincere) : Sincere (.edit change rest)
  | setPeer {peer rest} (then_ : rest.Sincere) : Sincere (.setPeer peer rest)
  | look {rest} (then_ : ∀ view, (rest view).Sincere) : Sincere (.look rest)
  | respond {content metadata rest} (then_ : ∀ result, (rest result).Sincere) :
    Sincere (.respond content metadata rest)
  | close {rest} (then_ : rest.Sincere) : Sincere (.close rest)
  | notify {m rest} (then_ : ∀ result, (rest result).Sincere) : Sincere (.notify m rest)
  | callAsync {m callbacks rest} (callbacks_ : ∀ handler ∈ callbacks, handler.Sincere)
    (then_ : ∀ result, (rest result).Sincere) : Sincere (.callAsync m callbacks rest)
  | report {event rest} (then_ : rest.Sincere) : Sincere (.report event rest)
  | reportCounts {source rest} (then_ : rest.Sincere) : Sincere (.reportCounts source rest)

def Pending.Sincere (pending : Pending) : Prop := ∀ handler ∈ pending.callbacks, handler.Sincere

namespace Engine

/-- Frames go out and nothing comes back while they do, no request was registered and not dealt with, and all callbacks
    are sincere. -/
structure Plainly (s : Engine) : Prop where
  line : s.line = {}
  rested : Rested s.journal
  pledged : ∀ pending ∈ pledges s.table.entries, pending.Sincere
  waited : ∀ w ∈ s.waits, w.pending.Sincere

/-- From one state to another some responses were written and some were heard, and everything said was apt. -/
structure Spoke (f : Framing) (s : Engine) (said listened : List Packet) (t : Engine) : Prop where
  journal : ∃ es, t.journal = es ++ s.journal ∧ (written es).filterMap f.response? = said ∧ heard es = listened
  worded : Worded f s.journal → Worded f t.journal
  plainly : t.Plainly

variable {α β : Type} {f : Framing} {s t u : Engine} {said said' listened listened' : List Packet}

namespace Spoke

theorem refl (plainly : s.Plainly) : Spoke f s [] [] s := ⟨⟨[], rfl, rfl, rfl⟩, id, plainly⟩

theorem trans (first : Spoke f s said listened t) (second : Spoke f t said' listened' u) :
    Spoke f s (said' ++ said) (listened' ++ listened) u where
  journal := by
    obtain ⟨es, hes, rfl, rfl⟩ := first.journal
    obtain ⟨es', hes', rfl, rfl⟩ := second.journal
    refine ⟨es' ++ es, by rw [hes', hes, List.append_assoc], ?_, ?_⟩
    · simp [written]
    · simp [heard]
  worded := second.worded ∘ first.worded
  plainly := second.plainly

theorem hush (first : Spoke f s said listened t) (second : Spoke f t [] [] u) : Spoke f s said listened u :=
  first.trans second

/-- What leaves the journal as it is says nothing. -/
theorem of_journal (plainly : s.Plainly) (journal : t.journal = s.journal) (line : t.line = s.line)
    (pledged : ∀ p ∈ pledges t.table.entries, p ∈ pledges s.table.entries) (waited : ∀ w ∈ t.waits, w ∈ s.waits) :
    Spoke f s [] [] t where
  journal := ⟨[], journal, rfl, rfl⟩
  worded worded := journal ▸ worded
  plainly := ⟨line.trans plainly.line, journal ▸ plainly.rested, fun p mem => plainly.pledged p (pledged p mem),
    fun w mem => plainly.waited w (waited w mem)⟩

/-- What changes neither the journal nor who waits for replies says nothing. -/
theorem of_same (plainly : s.Plainly) (journal : t.journal = s.journal) (line : t.line = s.line)
    (table : t.table = s.table) (waits : t.waits = s.waits) : Spoke f s [] [] t :=
  of_journal plainly journal line (fun _ mem => table ▸ mem) fun _ mem => waits ▸ mem

end Spoke

theorem Spoke.note {e : Entry} (plainly : s.Plainly) (silent : e.Wordless) : Spoke f s [] [] (s.note e) where
  journal := by
    refine ⟨[e], rfl, ?_, ?_⟩
    · cases e <;> first | rfl | exact silent.elim
    · cases e <;> first | rfl | exact silent.elim
  worded worded := by
    refine ⟨⟨?_, fun registered => absurd registered (plainly.rested _ _ _)⟩, worded⟩
    cases e <;> first | exact silent.elim | trivial
  plainly := by
    refine ⟨plainly.line, ?_, plainly.pledged, plainly.waited⟩
    rintro ticket q earlier heq
    obtain ⟨rfl, -⟩ := List.cons.inj heq
    exact silent

/-- Work writes and hears no responses wherever it begins. -/
def Hushed (f : Framing) (post : α → Prop) (m : EngineM α) : Prop :=
  ∀ s a t, s.Plainly → m s = .ok (a, t) → Spoke f s [] [] t ∧ post a

namespace Hushed

variable {post : α → Prop} {post' : β → Prop} {m : EngineM α} {k : α → EngineM β}

theorem pure {a : α} (holds : post a) : Hushed f post (Pure.pure a) := by
  intro s b t plainly h
  obtain ⟨rfl, rfl⟩ := pure_eq_ok.mp h
  exact ⟨.refl plainly, holds⟩

theorem get : Hushed f (fun _ => True) get := by
  intro s a t plainly h
  obtain ⟨rfl, rfl⟩ := get_eq_ok.mp h
  exact ⟨.refl plainly, trivial⟩

theorem bind (first : Hushed f post m) (rest : ∀ a, post a → Hushed f post' (k a)) : Hushed f post' (m >>= k) := by
  intro s b u plainly h
  obtain ⟨a, t, hm, h⟩ := bind_eq_ok.mp h
  obtain ⟨spoke, holds⟩ := first s a t plainly hm
  obtain ⟨spoke', holds'⟩ := rest a holds t b u spoke.plainly h
  exact ⟨spoke.hush spoke', holds'⟩

end Hushed

/-! ### Small steps -/

theorem record_hushed {e : Entry} (silent : e.Wordless) : Hushed f (fun _ => True) (record e) := by
  intro s x t plainly h
  obtain rfl := record_eq_ok.mp h
  exact ⟨.note plainly silent, trivial⟩

theorem takeParcel_hushed : Hushed f (fun _ => True) takeParcel := by
  intro s p t plainly h
  obtain ⟨-, rfl⟩ := takeParcel_eq_ok.mp h
  exact ⟨.of_same plainly rfl rfl rfl rfl, trivial⟩

theorem putParcel_hushed (p : Parcel) : Hushed f (fun _ => True) (putParcel p) := by
  intro s x t plainly h
  obtain rfl := putParcel_eq_ok.mp h
  exact ⟨.of_same plainly rfl rfl rfl rfl, trivial⟩

theorem takeContext_hushed : Hushed f (fun _ => True) takeContext := by
  intro s c t plainly h
  obtain ⟨-, rfl⟩ := takeContext_eq_ok.mp h
  exact ⟨.of_same plainly rfl rfl rfl rfl, trivial⟩

theorem putContext_hushed (c : Context) : Hushed f (fun _ => True) (putContext c) := by
  intro s x t plainly h
  obtain rfl := putContext_eq_ok.mp h
  exact ⟨.of_same plainly rfl rfl rfl rfl, trivial⟩

theorem answer_hushed {request : Packet} {metadata : Metadata} : Hushed f
    (fun p => p.command = .response ∧ p.session = request.session) (answer request metadata) := by
  intro s p t plainly h
  obtain ⟨rfl, rfl⟩ := answer_eq_ok.mp h
  exact ⟨.of_same plainly rfl rfl rfl rfl, rfl, rfl⟩

theorem issue_hushed {command : Command} {m : Outbound} :
    Hushed f (fun p => p.command = command) (issue command m) := by
  intro s p t plainly h
  obtain ⟨hcommand, -, rfl⟩ := issue_eq_ok h
  exact ⟨.of_same plainly rfl rfl rfl rfl, hcommand⟩

theorem release_hushed {kept : Context → Prop} (c : Context) (held : kept c) (given : kept c.release) :
    Hushed f kept (release c) := by
  unfold release
  split
  · exact .pure held
  · refine (putParcel_hushed c.parcel).bind fun _ _ => ?_
    intro s c' t plainly h
    obtain ⟨_, u, hload, h⟩ := bind_eq_ok.mp h
    obtain rfl := modify_eq_ok.mp hload
    obtain ⟨rfl, rfl⟩ := pure_eq_ok.mp h
    have loaded : Spoke f s [] [] { s with load := if c.counted then s.load - 1 else s.load } :=
      .of_same plainly rfl rfl rfl rfl
    exact ⟨loaded.hush (.note loaded.plainly trivial), given⟩

theorem mem_pledges_of_erase {n : UInt64} {pending : Pending} (mem : pending ∈ pledges (s.table.erase n).entries) :
    pending ∈ pledges s.table.entries := (List.filter_sublist.filterMap _).subset mem

theorem discard_hushed (n : UInt64) : Hushed f (fun _ => True) (discard n) := by
  intro s found t plainly h
  obtain ⟨-, rfl⟩ := discard_eq_ok.mp h
  have struck : Spoke f s [] [] { s with table := s.table.erase n } :=
    .of_journal plainly rfl rfl (fun _ => mem_pledges_of_erase) fun _ => id
  unfold strike
  split
  · exact ⟨struck.hush (.note struck.plainly trivial), trivial⟩
  · exact ⟨struck, trivial⟩

theorem takeMail_hushed (n : Nat) : Hushed f (fun _ => True) (takeMail n) := by
  intro s found t plainly h
  obtain ⟨-, rfl⟩ := takeMail_eq_ok.mp h
  exact ⟨.of_same plainly rfl rfl rfl rfl, trivial⟩

/-! ### Writing -/

/-- A frame was written. -/
def utter (frame : Bytes) (s : Engine) : Engine :=
  { s with writes := s.writes + 1, journal := .wrote frame :: s.journal }

variable {setup : Setup} {inner : Inner}

theorem write_eq (line : s.line = {}) (frame : Bytes) : write inner frame s = .ok (.ok (), s.utter frame) := by
  obtain ⟨issuer, contexts, table, load, tickets, mail, calls, waits, line', writes, hosted, journal⟩ := s
  obtain rfl : line' = {} := line
  rfl

theorem send_cases (line : s.line = {}) {p q : Parcel} {r : Except Fault Unit}
    (h : send setup inner p s = .ok ((q, r), t)) : q.toPacket = p.toPacket ∧
      ((∃ fault, r = .error fault ∧ setup.framing.encode p.toPacket = .error fault) ∧ t = s ∨
        ∃ frame, r = .ok () ∧ setup.framing.encode p.toPacket = .ok frame ∧ t = s.utter frame) := by
  have same := Parcel.frame_toPacket p setup.framing
  have encoded := Parcel.frame_eq_encode setup.framing p
  unfold send at h
  rcases framed : p.frame setup.framing with ⟨p', fault | frame⟩
  · rw [framed] at h same encoded
    obtain ⟨heq, rfl⟩ := pure_eq_ok.mp h
    obtain ⟨rfl, rfl⟩ := Prod.mk.inj heq
    exact ⟨same, .inl ⟨⟨fault, rfl, encoded.symm⟩, rfl⟩⟩
  · rw [framed] at h same encoded
    dsimp only at h
    rw [bind_of_ok (write_eq line frame)] at h
    obtain ⟨heq, rfl⟩ := pure_eq_ok.mp h
    obtain ⟨rfl, rfl⟩ := Prod.mk.inj heq
    exact ⟨same, .inr ⟨frame, rfl, encoded.symm, rfl⟩⟩

/-- The response that is written of a packet. -/
def responded (f : Framing) (q : Packet) : Option Packet :=
  if q.command = .response then some (f.layout.borne q) else none

theorem responded_utter {frame : Bytes} {q : Packet} (encoded : f.encode q = .ok frame) :
    [frame].filterMap f.response? = (responded f q).toList := by
  unfold Framing.response? responded
  simp only [List.filterMap_cons, List.filterMap_nil, Framing.packet?_encode encoded, Option.filter_some,
    Layout.command_borne]
  split <;> simp_all

/-- A packet that is no request is written. -/
theorem Spoke.utter {frame : Bytes} {q : Packet} (plainly : s.Plainly) (encoded : f.encode q = .ok frame)
    (other : q.command ≠ .request) : Spoke f s (responded f q).toList [] (s.utter frame) where
  journal := ⟨[.wrote frame], rfl, responded_utter encoded, rfl⟩
  worded worded := ⟨⟨⟨q, encoded, (absurd · other)⟩, fun registered => absurd registered (plainly.rested _ _ _)⟩, worded⟩
  plainly := ⟨plainly.line, nofun, plainly.pledged, plainly.waited⟩

/-- Content is sent away in a packet that is no request. -/
theorem sendAway_spoke (plainly : s.Plainly) {p : Parcel} (other : p.command ≠ .request)
    {content : Except Fault Content} {r : Except Fault Unit}
    (h : sendAway setup inner p content s = .ok (r, t)) :
    (∃ fault, r = .error fault) ∧ Spoke setup.framing s [] [] t ∨
    r = .ok () ∧ ∃ c, content = .ok c ∧
      Spoke setup.framing s (responded setup.framing (p.toPacket.carry c)).toList [] t := by
  unfold sendAway at h
  rcases content with fault | c
  · have put := putParcel_hushed (f := setup.framing) p
    obtain ⟨_, u, hput, h⟩ := bind_eq_ok.mp h
    obtain ⟨rfl, rfl⟩ := pure_eq_ok.mp h
    exact .inl ⟨⟨fault, rfl⟩, (put s _ _ plainly hput).1⟩
  · obtain ⟨⟨q, result⟩, u, hsend, h⟩ := bind_eq_ok.mp h
    obtain ⟨_, v, hput, h⟩ := bind_eq_ok.mp h
    obtain ⟨rfl, rfl⟩ := pure_eq_ok.mp h
    rcases (send_cases plainly.line hsend).2 with ⟨⟨fault, rfl, -⟩, rfl⟩ | ⟨frame, rfl, encoded, rfl⟩
    · exact .inl ⟨⟨fault, rfl⟩, (putParcel_hushed q _ _ _ plainly hput).1⟩
    · have spoke := Spoke.utter plainly encoded other
      exact .inr ⟨rfl, c, rfl, spoke.hush (putParcel_hushed q _ _ _ spoke.plainly hput).1⟩

theorem notify_hushed (m : Outbound) : Hushed setup.framing (fun _ => True) (notify setup inner m) := by
  refine issue_hushed.bind fun p command => ?_
  intro s r t plainly h
  rcases sendAway_spoke plainly (by simp [command]) h with ⟨-, spoke⟩ | ⟨-, c, -, spoke⟩
  · exact ⟨spoke, trivial⟩
  · have none : responded setup.framing (p.toPacket.carry c) = none := by
      unfold responded
      rw [if_neg]
      change p.command ≠ .response
      simp [command]
    rw [none] at spoke
    exact ⟨spoke, trivial⟩

theorem respond_spoke (plainly : s.Plainly) {c : Context} {content : Except Fault Content} {metadata : Metadata}
    {r : Except Fault Unit} (h : respond setup inner c content metadata s = .ok (r, t)) :
    Spoke setup.framing s
      (c.parcel.toPacket.replied? setup.framing.layout metadata content r).toList [] t ∧
    (r = .ok () → c.parcel.command = .request) := by
  unfold respond at h
  rcases may : c.mayRespond with fault | _
  · rw [may] at h
    obtain ⟨rfl, rfl⟩ := pure_eq_ok.mp h
    have none : c.parcel.toPacket.replied? setup.framing.layout metadata content (.error fault) = none := by
      cases content <;> rfl
    rw [none]
    exact ⟨.refl plainly, nofun⟩
  · have request : c.parcel.command = .request := by
      unfold Context.mayRespond at may
      split at may
      · cases may
      · rename_i command
        exact not_not.mp command
    rw [may] at h
    obtain ⟨p, u, hanswer, h⟩ := bind_eq_ok.mp h
    obtain ⟨taken, response, -⟩ := answer_hushed (f := setup.framing) _ _ _ plainly hanswer
    obtain ⟨rfl, -⟩ := answer_eq_ok.mp hanswer
    refine ⟨?_, fun _ => request⟩
    rcases sendAway_spoke taken.plainly (by simp [response]) h with ⟨⟨fault, rfl⟩, spoke⟩ | ⟨rfl, c', rfl, spoke⟩
    · have none : c.parcel.toPacket.replied? setup.framing.layout metadata content (.error fault) = none := by
        cases content <;> rfl
      rw [none]
      exact taken.trans spoke
    · exact taken.trans spoke

/-! ### Asynchronous calls -/

/-- The packet that is taken out for a message, with its value in it, is the message's request. -/
theorem drafts_of_issue {m : Outbound} {p q : Parcel} {x : Unit} (h : issue .request m s = .ok (p, t))
    (loaded : p.load (m.body.map .value) = (q, .ok x)) : m.Drafts q.toPacket := by
  simp only [issue, modifyGet_eq_ok, Issuer.issue, Issuer.nextSession, Issuer.get, Prod.mk.injEq] at h
  obtain ⟨rfl, -⟩ := h
  rcases body : m.body with fault | octets
  · rw [body] at loaded
    cases loaded
  · rw [body] at loaded
    cases loaded
    have carried : ∀ q : Packet, (q.carry (.value octets)).carried = .ok octets := fun q => q.carried_carry _
    cases route : m.route with
    | uri path => exact ⟨rfl, body.trans (carried _).symm, carried _, rfl, rfl, by rw [route]; rfl⟩
    | id number => exact ⟨rfl, body.trans (carried _).symm, carried _, rfl, rfl, by rw [route]; rfl⟩

theorem takeUp_hushed {pending : Pending} (sincere : pending.Sincere) (limit : Duration) :
    Hushed f (fun _ => True) (takeUp setup pending limit) := by
  intro s x t plainly h
  unfold takeUp at h
  have waits : Spoke f s [] [] { s with waits := s.waits ++ [{ pending, limit }] } := by
    refine ⟨⟨[], rfl, rfl, rfl⟩, id, plainly.line, plainly.rested, plainly.pledged, fun w mem => ?_⟩
    rcases List.mem_append.mp mem with mem | mem
    · exact plainly.waited w mem
    · rw [List.mem_singleton.mp mem]
      exact sincere
  have same : pledges (s.deafen pending.ticket).table.entries = pledges s.table.entries := by
    unfold pledges deafen
    rw [List.filterMap_map]
    congr 1
    funext e
    obtain ⟨n, entry⟩ := e
    cases entry <;> rfl
  cases spawner : setup.spawner with
  | drop =>
    rw [spawner] at h
    obtain rfl := modify_eq_ok.mp h
    exact ⟨.of_journal plainly rfl rfl (fun _ mem => same ▸ mem) fun _ => id, trivial⟩
  | ambient | keep =>
    rw [spawner] at h
    obtain rfl := modify_eq_ok.mp h
    exact ⟨waits, trivial⟩

section

variable {entry : Session} {q : Packet}

/-- Callbacks that are put into the table are sincere if those were that may be kept for the request. -/
theorem Plainly.pledged_enroll (plainly : s.Plainly)
    (sincere : ∀ pending, entry.pending? = some pending → pending.Sincere) :
    ∀ pending ∈ pledges (s.enroll entry q).table.entries, pending.Sincere := by
  intro pending mem
  change pending ∈ pledges (s.table.entries ++ [(q.session, entry)]) at mem
  unfold pledges at mem
  rw [List.filterMap_append] at mem
  rcases List.mem_append.mp mem with mem | mem
  · exact plainly.pledged pending mem
  · obtain ⟨e, he, hentry⟩ := List.mem_filterMap.mp mem
    cases List.mem_singleton.mp he
    exact sincere pending hentry

variable (plainly : s.Plainly) (drafted : ∃ made : Made, made.entry entry.ticket ∈ s.journal ∧ made.message.Drafts q)
  (sincere : ∀ pending, entry.pending? = some pending → pending.Sincere)
include plainly drafted

theorem Plainly.worded_enroll (worded : Worded f s.journal) : Worded f (s.enroll entry q).journal :=
  ⟨⟨drafted, fun registered => absurd registered (plainly.rested _ _ _)⟩, worded⟩

include sincere

/-- A request is registered for a call that was made, and written. -/
theorem Spoke.ask {frame : Bytes} (encoded : f.encode q = .ok frame) :
    Spoke f s [] [] ((s.enroll entry q).utter frame) where
  journal := by
    obtain ⟨made, -, drafts⟩ := drafted
    refine ⟨[.wrote frame, .registered entry.ticket q], rfl, (responded_utter encoded).trans ?_, rfl⟩
    unfold responded
    simp [drafts.command]
  -- The request is written right after it is registered, so nothing comes between.
  worded worded := by
    refine ⟨⟨⟨q, encoded, fun _ => ⟨entry.ticket, s.journal, rfl⟩⟩, fun registered => ?_⟩,
      plainly.worded_enroll drafted worded⟩
    cases registered
    exact .inl ⟨frame, rfl, encoded⟩
  plainly := ⟨plainly.line, nofun, plainly.pledged_enroll sincere, plainly.waited⟩

/-- A request is registered for a call that was made, and does not fit. -/
theorem Spoke.balk {fault : Fault} (misfit : f.encode q = .error fault) :
    Spoke f s [] [] ((s.enroll entry q).note (.unsent entry.ticket fault)) where
  journal := ⟨[.unsent entry.ticket fault, .registered entry.ticket q], rfl, rfl, rfl⟩
  worded worded := by
    refine ⟨⟨⟨q, s.journal, rfl, misfit⟩, fun registered => ?_⟩, plainly.worded_enroll drafted worded⟩
    cases registered
    exact .inr ⟨fault, rfl⟩
  plainly := ⟨plainly.line, nofun, plainly.pledged_enroll sincere, plainly.waited⟩

end

theorem expectReply_hushed {m : Outbound} {pending : Pending} {frame : Bytes} (sincere : pending.Sincere)
    (encoded : setup.framing.encode pending.request.toPacket = .ok frame) {r : Except Fault Unit}
    (plainly : s.Plainly) (drafts : m.Drafts pending.request.toPacket)
    (asked : .calledAsync pending.ticket m pending.callbacks ∈ s.journal)
    (h : expectReply setup inner m pending frame s = .ok (r, t)) : Spoke setup.framing s [] [] t := by
  unfold expectReply at h
  obtain ⟨answer, u, hregister, rest⟩ := bind_eq_ok.mp h
  clear h
  rcases register_cases hregister with ⟨rfl, -, rfl⟩ | ⟨rfl, -, -, rfl⟩
  · obtain ⟨_, v, hput, rest⟩ := bind_eq_ok.mp rest
    obtain ⟨rfl, rfl⟩ := pure_eq_ok.mp rest
    exact (putParcel_hushed pending.request _ _ _ plainly hput).1
  · have enrolled : ∀ entry : Session, entry.ticket = pending.ticket →
        (∀ p, entry.pending? = some p → p.Sincere) →
        Spoke setup.framing s [] [] ((s.enroll entry pending.request.toPacket).utter frame) := by
      intro entry own kept
      exact .ask plainly ⟨.async m pending.callbacks, own ▸ asked, drafts⟩ kept encoded
    have written : ∀ entry : Session, write inner frame (s.enroll entry pending.request.toPacket) =
        .ok (.ok (), (s.enroll entry pending.request.toPacket).utter frame) :=
      fun entry => write_eq (s := s.enroll entry pending.request.toPacket) plainly.line frame
    cases timed : m.timeout with
    | none =>
      simp only [timed] at rest
      rw [bind_of_ok (written _)] at rest
      obtain ⟨rfl, rfl⟩ := pure_eq_ok.mp rest
      exact enrolled (.callback pending) rfl fun p same => Option.some.inj same ▸ sincere
    | some limit =>
      simp only [timed] at rest
      have placed := enrolled (.waiting pending.ticket true) rfl nofun
      rw [bind_of_ok (written _)] at rest
      obtain ⟨_, v, htake, rest⟩ := bind_eq_ok.mp rest
      obtain ⟨rfl, rfl⟩ := pure_eq_ok.mp rest
      exact placed.hush (takeUp_hushed sincere limit _ _ _ placed.plainly htake).1

theorem request_hushed {m : Outbound} {callbacks : List Program} {ticket : Nat}
    (sincere : ∀ handler ∈ callbacks, handler.Sincere) {r : Except Fault Unit} (plainly : s.Plainly)
    (asked : .calledAsync ticket m callbacks ∈ s.journal)
    (h : request setup inner m callbacks ticket s = .ok (r, t)) : Spoke setup.framing s [] [] t := by
  unfold request at h
  obtain ⟨_, _, hget, h⟩ := bind_eq_ok.mp h
  obtain ⟨rfl, rfl⟩ := get_eq_ok.mp hget
  split at h
  · obtain ⟨rfl, rfl⟩ := pure_eq_ok.mp h
    exact .refl plainly
  obtain ⟨p, u, hissue, h⟩ := bind_eq_ok.mp h
  have issued := (issue_hushed (f := setup.framing) _ _ _ plainly hissue).1
  have given : ∀ q : Parcel, Spoke setup.framing s [] [] { u with issuer := u.issuer.put q } := fun q =>
    issued.hush (putParcel_hushed q _ () _ issued.plainly (putParcel_eq_ok.mpr rfl)).1
  have there : .calledAsync ticket m callbacks ∈ u.journal := by
    obtain ⟨-, -, rfl⟩ := issue_eq_ok hissue
    exact asked
  rcases hload : p.load (m.body.map .value) with ⟨q, fault | _⟩
  · rw [hload] at h
    obtain ⟨_, v, hput, h⟩ := bind_eq_ok.mp h
    obtain rfl := putParcel_eq_ok.mp hput
    obtain ⟨rfl, rfl⟩ := pure_eq_ok.mp h
    exact given q
  · rw [hload] at h
    have drafts := drafts_of_issue hissue hload
    have same := Parcel.frame_toPacket q setup.framing
    have encoded := Parcel.frame_eq_encode setup.framing q
    rcases hframe : q.frame setup.framing with ⟨q', fault | frame⟩
    · simp only [hframe] at h
      obtain ⟨_, v, hput, h⟩ := bind_eq_ok.mp h
      obtain rfl := putParcel_eq_ok.mp hput
      obtain ⟨rfl, rfl⟩ := pure_eq_ok.mp h
      exact given q'
    · simp only [hframe] at h
      rw [hframe] at same encoded
      -- Framing leaves the packet as it is but for its buffer.
      have own : m.Drafts q'.takeScratch.toPacket := same ▸ drafts
      have framed : setup.framing.encode q'.takeScratch.toPacket = .ok frame := by
        change setup.framing.encode q'.toPacket = _
        rw [same, ← encoded]
      have sincere : Pending.Sincere { ticket, callbacks, request := q'.takeScratch } := sincere
      exact issued.hush (expectReply_hushed sincere framed issued.plainly own there h)

theorem callAsync_hushed {m : Outbound} {callbacks : List Program} (sincere : ∀ handler ∈ callbacks, handler.Sincere) :
    Hushed setup.framing (fun _ => True) (callAsync setup inner m callbacks) := by
  intro s r t plainly h
  unfold callAsync at h
  obtain ⟨ticket, u, hopen, h⟩ := bind_eq_ok.mp h
  obtain ⟨rfl, rfl⟩ := openTicket_eq_ok.mp hopen
  obtain ⟨_, v, hrec, h⟩ := bind_eq_ok.mp h
  obtain ⟨result, w, hrequest, h⟩ := bind_eq_ok.mp h
  obtain ⟨_, x, hrec', h⟩ := bind_eq_ok.mp h
  obtain ⟨rfl, rfl⟩ := pure_eq_ok.mp h
  have opened : Spoke setup.framing s [] [] { s with tickets := s.tickets + 1 } := .of_same plainly rfl rfl rfl rfl
  obtain rfl := record_eq_ok.mp hrec
  have noted : Spoke setup.framing _ [] [] (note (.calledAsync s.tickets m callbacks) _) := .note opened.plainly trivial
  have requested := request_hushed sincere noted.plainly List.mem_cons_self hrequest
  obtain rfl := record_eq_ok.mp hrec'
  exact ⟨((opened.hush noted).hush requested).hush (.note requested.plainly trivial), trivial⟩

end Engine
end Switchboard
