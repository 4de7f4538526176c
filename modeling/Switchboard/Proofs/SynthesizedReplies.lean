import Switchboard.Proofs.FrameCourse
import Switchboard.Proofs.Link.Exchange
import Switchboard.Proofs.Responses
import Switchboard.Proofs.Teardown

/-! Callbacks whose call came to nothing are run with a packet that was made up here. It is the very packet that they
    would have been run with if the far side had read the request, responded with the same fault, and its response had
    arrived. -/

namespace Switchboard

/-- A frame is what a peer writes who has read a request from its frame and responds to it with some content. -/
def Framing.Answer (f : Framing) (request : Packet) (k : Content) (answer : Bytes) : Prop :=
  ∃ frame, f.encode request = .ok frame ∧
    ∀ {peer : Setup} {inner : Inner} {q : Parcel} {c : Context} {u : Engine}, peer.framing = f →
      c.parcel.toPacket = (q.unframe f frame).1.toPacket → c.bound = true →
      ∃ p, Engine.respond peer inner c (.ok k) .empty u = (do
        Engine.countFrame answer
        Engine.react inner (u.line.reactions u.writes answer)
        Engine.putParcel p
        pure (u.line.result u.writes answer)) { u with issuer := u.issuer.get.2 }

namespace Engine

/-- Callbacks are in the table, under the number of their request. -/
def Pledged (v : Engine) (pending : Pending) : Prop :=
  v.table.find pending.request.session = some (.callback pending)

/-- Someone waits on behalf of callbacks, and no reply has been handed over. -/
structure Watched (v : Engine) (pending : Pending) : Prop where
  session : v.table.find pending.request.session = some (.waiting pending.ticket true)
  wait : ∃ w, v.waits.find? (fun w => w.pending.ticket == pending.ticket) = some w ∧ w.pending = pending
  unread : v.mail.lookup pending.ticket = none

/-- What callbacks are run with when a frame arrives while they wait: at once if they are in the table, and when their
    wait is polled next if someone waits on their behalf. -/
structure Heard (setup : Setup) (pending : Pending) (answer : Bytes) (p : Packet) : Prop where
  untimed {inner : Inner} {v : Engine} {data : Bytes} : (siftData setup.dataFilters data).2 = .ok (some answer) →
    v.Pledged pending → ∃ (q : Parcel) (u : Engine), q.toPacket = p ∧ receiveWith setup inner data v = (do
      deliver setup inner pending q
      pure (.ok ()) : EngineM (Except Fault Unit)) u
  timed {inner : Inner} {v : Engine} {data : Bytes} : (siftData setup.dataFilters data).2 = .ok (some answer) →
    v.Watched pending → ∃ u, receiveWith setup inner data v = .ok (.ok (), u) ∧
      ∀ inner now, ∃ (q : Parcel) (t : Engine), q.toPacket = p ∧
        pollWait setup inner now pending.ticket u = deliver setup inner pending q t

/-- A packet is what callbacks are run with when a peer responds to their request with some content, as long as the
    response is not too large. -/
def Mirrors (setup : Setup) (pending : Pending) (k : Content) (p : Packet) : Prop :=
  setup.framing.layout.frameLength (pending.request.toPacket.reply .empty k) ≤ min setup.framing.limit Layout.largest →
    ∃ answer, setup.framing.Answer pending.request.toPacket k answer ∧ Heard setup pending answer p

end Engine

/-- Callbacks wait for a reply, in the table or with someone who waits on their behalf, or they were run. -/
inductive Pending.TakenOn (pending : Pending) (s : Engine) : Prop where
  | table {n : UInt64} (mem : (n, .callback pending) ∈ s.table.entries)
  | wait {w : Wait} (mem : w ∈ s.waits) (own : w.pending = pending)
  | run {p : Packet} (mem : .delivered pending p ∈ s.journal)

/-! ### Requests and responses in frames -/

section

variable {f : Framing} {l : Layout} {m : Outbound} {request : Packet} {k : Content} {frame answer : Bytes}

/-- A response to a request has the request's routing key, and loses nothing where the request does not. -/
theorem Packet.borne_reply (whole : l.borne request = request) :
    l.borne (request.reply .empty k) = request.reply .empty k := by
  cases l with
  | uri => exact Layout.borne_eq_self (fun _ => (congrArg Packet.id whole).symm) nofun
  | id => exact Layout.borne_eq_self nofun fun _ => (congrArg Packet.uri whole).symm

/-- The response to a request that was written can be written if it is not too large. -/
theorem Framing.encode_reply (asked : f.encode request = .ok frame)
    (fits : f.layout.frameLength (request.reply .empty k) ≤ min f.limit Layout.largest) :
    ∃ answer, f.encode (request.reply .empty k) = .ok answer := by
  have framed : (({ toPacket := request } : Parcel).frame f).2 = .ok frame := by rw [Parcel.frame_eq_encode, asked]
  obtain ⟨met, -⟩ := Parcel.met_of_frame framed
  -- The response has the routing key of the request and no metadata, so only its size is left to ask about.
  have met' : ∀ d, Layout.Demand.Met f.layout f.limit (request.reply .empty k) d := by
    intro d
    cases d with
    | key => exact met .key
    | size => exact fits
    | metadata => exact fun _ mem => absurd mem List.not_mem_nil
  exact ⟨_, (Parcel.frame_eq_encode f { toPacket := request.reply .empty k }).symm.trans (Parcel.frame_of_met met')⟩

theorem Framing.answer_of_encode (asked : f.encode request = .ok frame) (whole : f.layout.borne request = request)
    (command : request.command = .request) (answered : f.encode (request.reply .empty k) = .ok answer) :
    f.Answer request k answer := by
  refine ⟨frame, asked, ?_⟩
  rintro peer inner q c u rfl own bound
  have read : c.parcel.toPacket = request := by
    rw [own, Parcel.unframe, Framing.decode_encode asked, whole]
  refine Engine.respond_of_framed ?_ bound ?_
  · rw [read, command]
  · rw [read, answered]

end

/-- What callbacks of a call are run with stays so, whatever is told afterwards. -/
theorem Account.Delivers.append {J K : List Entry} {t : Nat} {pending : Pending} {p : Packet}
    (delivers : (account t J).Delivers pending p) : (account t (K ++ J)).Delivers pending p := by
  obtain ⟨m, made, request, what⟩ := delivers
  have further : (account t J).Extends (account t (K ++ J)) := extends_account K J
  -- What callbacks are run with comes of a session that ended, and that stays so.
  have fate : (account t (K ++ J)).fate = (account t J).fate := by
    refine fate_append (fun r awaiting => ?_) fun none => ?_
    · rw [awaiting] at what
      exact what
    · rw [none] at what
      exact what
  exact ⟨m, further.made made, further.request request, by rwa [fate]⟩

namespace Engine

variable {setup : Setup} {shared : Bool} {inner : Inner} {s t u v : Engine} {k : Content} {pending : Pending}
  {answer data : Bytes}

/-! ### A response that arrives -/

/-- A response that the data filters let through is looked for in the table. -/
theorem receiveWith_of_reply (inner : Inner) (v : Engine) (hook : setup.hook = .replies)
    (sifted : (siftData setup.dataFilters data).2 = .ok (some answer)) {p : Packet}
    (read : setup.framing.decode answer = .ok p) (response : p.command = .response) :
    ∃ (q : Parcel) (told : List Entry), q.toPacket = p ∧ receiveWith setup inner data v = (do
      acceptReply setup inner q
      pure (.ok ()) : EngineM (Except Fault Unit))
        { v with journal := told ++ v.journal, issuer := v.issuer.get.2 } := by
  refine ⟨{ toPacket := p, scratch := v.issuer.get.1.scratch }, (siftData setup.dataFilters data).1, rfl, ?_⟩
  have course : setup.course v data = ((siftData setup.dataFilters data).1,
      .reply { toPacket := p, scratch := v.issuer.get.1.scratch }) := by
    unfold Setup.course Parcel.unframe Setup.inspect
    rw [← Prod.eta (siftData setup.dataFilters data), sifted]
    simp only [read, hook, response, if_true, List.nil_append]
  rw [receiveWith_eq, course]
  rfl

theorem acceptReply_of_callback {q : Parcel} (found : v.table.find q.session = some (.callback pending)) :
    acceptReply setup inner q v = deliver setup inner pending q
      { v with table := v.table.erase q.session, journal := .matched pending.ticket q.toPacket :: v.journal } := by
  unfold acceptReply
  rw [bind_of_ok (takeSession_eq_ok.mpr ⟨found, rfl⟩)]
  rfl

theorem acceptReply_of_waiting {q : Parcel} {ticket : Nat}
    (found : v.table.find q.session = some (.waiting ticket true)) : acceptReply setup inner q v = .ok ((), { v with
      table := v.table.erase q.session, journal := .matched ticket q.toPacket :: v.journal
      mail := v.mail ++ [(ticket, q)] }) := by
  unfold acceptReply
  rw [bind_of_ok (takeSession_eq_ok.mpr ⟨found, rfl⟩)]
  rfl

theorem beginWait_eq (now : Nat) (w : Wait) : ∃ deadline u, beginWait now w v = .ok (deadline, u) ∧ u.mail = v.mail := by
  unfold beginWait
  cases w.deadline with
  | some deadline => exact ⟨deadline, v, rfl, rfl⟩
  | none => exact ⟨_, _, rfl, rfl⟩

/-- Callbacks are run with the response that arrives, whether they are in the table or someone waits for them. -/
theorem heard_reply (hook : setup.hook = .replies)
    (read : setup.framing.decode answer = .ok (pending.request.toPacket.reply .empty k)) :
    Heard setup pending answer (pending.request.toPacket.reply .empty k) where
  untimed {inner v data} sifted pledged := by
    obtain ⟨q, told, packet, received⟩ := receiveWith_of_reply inner v hook sifted read rfl
    have number : q.session = pending.request.session := by rw [packet]; rfl
    exact ⟨q, _, packet, received.trans (bind_eq_bind (acceptReply_of_callback (number ▸ pledged)))⟩
  timed {inner v data} sifted watched := by
    obtain ⟨q, told, packet, received⟩ := receiveWith_of_reply inner v hook sifted read rfl
    have number : q.session = pending.request.session := by rw [packet]; rfl
    refine ⟨_, received.trans (bind_of_ok (acceptReply_of_waiting (number ▸ watched.session))), fun inner now => ?_⟩
    obtain ⟨w, waits, rfl⟩ := watched.wait
    obtain ⟨deadline, t, begun, mail⟩ := beginWait_eq (v := { v with
      issuer := v.issuer.get.2, table := v.table.erase q.session, mail := v.mail ++ [(w.pending.ticket, q)]
      journal := .matched w.pending.ticket q.toPacket :: (told ++ v.journal)
      waits := v.waits.filter fun w' => w'.pending.ticket != w.pending.ticket }) now w
    refine ⟨q, _, packet, pollWait_replied (modifyGet_eq_ok.mpr (by rw [waits])) begun ?_⟩
    -- The reply is the only one that was handed over.
    rw [mail, List.lookup_append, watched.unread]
    simp

/-- A reply that is made up here is what a real one would have been. -/
theorem mirrors_reply (hook : setup.hook = .replies) {frame : Bytes} {m : Outbound}
    (asked : setup.framing.encode pending.request.toPacket = .ok frame) (drafts : m.Drafts pending.request.toPacket)
    (suits : setup.framing.layout.Suits m.route) : Mirrors setup pending k (pending.request.toPacket.reply .empty k) := by
  intro fits
  have whole := drafts.borne suits
  obtain ⟨answer, answered⟩ := Framing.encode_reply asked fits
  refine ⟨answer, Framing.answer_of_encode asked whole drafts.command answered, heard_reply hook ?_⟩
  rw [Framing.decode_encode answered, Packet.borne_reply whole]

/-! ### The callbacks of a call -/

/-- Callbacks that were run were run with what belongs to the end of their session. -/
theorem Inv.delivers (inv : Inv setup s 0) {p : Packet} (mem : .delivered pending p ∈ s.journal) :
    (account pending.ticket s.journal).Delivers pending p := by
  obtain ⟨later, earlier, split⟩ := List.append_of_mem mem
  have coherent := inv.coherent
  rw [split] at coherent
  rw [split, List.append_cons]
  exact coherent.admissible.2.append

/-- The request that callbacks are kept with is the one that was registered for their call. -/
theorem Inv.registered (inv : Inv setup s 0) (taken : pending.TakenOn s) :
    .registered pending.ticket pending.request.toPacket ∈ s.journal := by
  cases taken with
  | table mem =>
    obtain ⟨r, fate, rfl, -, -, rfl, -⟩ := inv.found (inv.keyed.find_of_mem mem)
    exact mem_of_request (congrArg Fate.request? fate)
  | @wait w mem own =>
    obtain rfl := own
    obtain ⟨-, -, -, listens⟩ := inv.fits _ (watching_mem_estate mem)
    exact mem_of_request listens.request?
  | run mem =>
    obtain ⟨_, -, request, -⟩ := inv.delivers mem
    exact mem_of_request request

theorem Inv.pledged (inv : Inv setup s 0) {n : UInt64} (mem : (n, .callback pending) ∈ s.table.entries) :
    s.Pledged pending := by
  have found := inv.keyed.find_of_mem mem
  obtain ⟨r, -, number, -, -, own, -⟩ := inv.found found
  unfold Pledged
  rw [own, number, found]

theorem Inv.watched (inv : Inv setup s 0) {w : Wait} (mem : w ∈ s.waits) {r : Packet}
    (awaits : Awaits s.journal w.pending.ticket r) : s.Watched w.pending := by
  obtain ⟨-, -, -, listens⟩ := inv.fits _ (watching_mem_estate mem)
  obtain ⟨-, sessions, mail⟩ := listens.of_awaiting (awaits.fate inv.coherent)
  have seat : (w.pending.request.session, .waiting w.pending.ticket true) ∈ s.table.sessionsOf w.pending.ticket := by
    change _ ∈ (s.standing w.pending.ticket).sessions
    exact sessions ▸ List.mem_singleton_self _
  refine ⟨inv.keyed.find_of_mem (SessionTable.mem_sessionsOf.mp seat).1, ⟨w, ?_, rfl⟩, lookup_of_mail mail⟩
  exact find_of_mem (fun w => w.pending.ticket) (inv.single_wait w.pending.ticket) mem

/-- The request of an asynchronous call bears the message of the call, and fits into a frame. -/
theorem Reachable.requested (run : Reachable setup shared s) {t : Nat} {m : Outbound} {callbacks : List Program}
    {request : Packet} (asked : .calledAsync t m callbacks ∈ s.journal) (registered : .registered t request ∈ s.journal) :
    m.Drafts request ∧ ∃ frame, setup.framing.encode request = .ok frame := by
  obtain ⟨-, -, honest⟩ := run.level
  obtain ⟨later, earlier, split⟩ := List.append_of_mem registered
  obtain ⟨made, there, drafts, framed⟩ := honest later _ earlier split
  have coherent := run.inv.coherent
  have same : made = .async m callbacks := by
    have first : (account t s.journal).made = some made :=
      coherent.made_of_mem (split ▸ List.mem_append_right _ (List.mem_cons_of_mem _ there))
    have own : (account t s.journal).made = some (.async m callbacks) := coherent.made_of_mem asked
    exact Option.some.inj (first.symm.trans own)
  subst same
  exact ⟨drafts, framed m callbacks rfl⟩

/-- Callbacks cannot tell what is made up here from what a peer says. Whatever asynchronous call they belong to, with a
    route that the layout carries, the packet that is made up for any fault is the one they would have been run with if a
    peer had read the request from its frame and responded with the code and the message of the fault, without metadata,
    and the response had arrived while they waited. So it is with callbacks that were run because the connection was
    closed or their time was over. The response filter has the request that was registered for the call, whichever packet
    they are run with. -/
theorem synthesized_replies_mirror_responses (run : Reachable setup shared s) (hook : setup.hook = .replies)
    {m : Outbound} {callbacks : List Program} (asked : .calledAsync pending.ticket m callbacks ∈ s.journal)
    (suits : setup.framing.layout.Suits m.route) (taken : pending.TakenOn s) :
    (∀ fault v, ∃ p, synthesize pending.request.toPacket fault v = .ok (p, { v with issuer := v.issuer.get.2 }) ∧
      Mirrors setup pending (.fault fault.code fault.message) p.toPacket) ∧
    (∀ p r, .delivered pending p ∈ s.journal → EndedBy s.journal pending.ticket r .closed →
      Mirrors setup pending (.fault .sessionClosed "connection closed before reply") p) ∧
    (∀ p r now, .delivered pending p ∈ s.journal → EndedBy s.journal pending.ticket r (.expired pending.ticket now) →
      ∃ limit, m.timeout = some limit ∧ Mirrors setup pending (.fault .timeout (Fault.waitTimedOut limit).message) p) ∧
    ((∀ n, (n, .callback pending) ∈ s.table.entries → s.Pledged pending) ∧
      ∀ w r, w ∈ s.waits → w.pending = pending → Awaits s.journal pending.ticket r → s.Watched pending) ∧
    (.registered pending.ticket pending.request.toPacket ∈ s.journal ∧ m.Drafts pending.request.toPacket) ∧
    ∀ inner q v, deliver setup inner pending q v = (do
      drive
        (perform setup inner (next setup inner pending.callbacks) (setup.responseFilter pending.request.toPacket))
        (v.contexts.get.1.bind q false)
      putParcel pending.request)
        { v with contexts := v.contexts.get.2, journal := .delivered pending q.toPacket :: v.journal } := by
  have inv := run.inv
  have registered := inv.registered taken
  obtain ⟨drafts, frame, framed⟩ := run.requested asked registered
  have mirrors : ∀ fault : Fault, Mirrors setup pending (.ofFault fault) (pending.request.toPacket.faultReply fault) :=
    fun fault => mirrors_reply hook framed drafts suits
  refine ⟨fun fault v => ?_, fun p r delivered ended => ?_, fun p r now delivered ended => ?_,
    ⟨fun n => inv.pledged, ?_⟩, ⟨registered, drafts⟩, fun inner q v => rfl⟩
  · obtain ⟨p, packet, made⟩ := synthesize_eq (s := v) pending.request.toPacket fault
    exact ⟨p, made, packet ▸ mirrors fault⟩
  · obtain ⟨_, -, request, what⟩ := inv.delivers delivered
    rw [fate_of_closed inv.coherent ended] at request what
    obtain rfl := Option.some.inj request
    exact what ▸ mirrors .closedWaiting
  · obtain ⟨m', made, request, what⟩ := inv.delivers delivered
    rw [fate_of_expired inv.coherent ended] at request what
    obtain rfl := Option.some.inj request
    obtain ⟨limit, timed, rfl⟩ := what
    have own : (account pending.ticket s.journal).made = some (.async m callbacks) := inv.coherent.made_of_mem asked
    cases made.symm.trans own
    exact ⟨limit, timed, mirrors (.waitTimedOut limit)⟩
  · rintro w r mem rfl awaits
    exact inv.watched mem awaits

/-! ### A run without replies -/

/-- The time of one call is over before its connection is closed; that of the other is not limited. -/
def forsaken : Engine :=
  actAll numeric 1
    [.callAsync { route := .id 7, body := .ok [1] } [],
      .callAsync { route := .id 7, body := .ok [2], timeout := some ⟨5⟩ } [], .pollWait 0 1, .pollWait 5 1, .close] {}

theorem reachable_forsaken : Reachable numeric false forsaken :=
  (Reachable.start {} {} {} true fun _ => rfl).actAll 1 _

/-- An asynchronous call to a route was made, with a time limit or without. -/
def asksFor (ticket : Nat) (route : Route) (limit : Option Duration) (J : List Entry) : Bool :=
  J.any fun e => match e with
    | .calledAsync t m _ => t == ticket && (m.route == route && m.timeout == limit)
    | _ => false

theorem asked_of_asksFor {J : List Entry} {t : Nat} {route : Route} {limit : Option Duration}
    (h : asksFor t route limit J = true) :
    ∃ m callbacks, .calledAsync t m callbacks ∈ J ∧ m.route = route ∧ m.timeout = limit := by
  obtain ⟨e, mem, h⟩ := List.any_eq_true.mp h
  split at h
  · simp only [Bool.and_eq_true, beq_iff_eq] at h
    obtain ⟨rfl, same⟩ := h
    exact ⟨_, _, mem, same⟩
  · cases h

/-- Callbacks of a ticket were run, whose request may be answered with some fault. -/
def ranFor (ticket : Nat) (fault : Fault) (J : List Entry) : Bool :=
  J.any fun e => match e with
    | .delivered pending _ => pending.ticket == ticket &&
      numeric.framing.layout.frameLength (pending.request.toPacket.reply .empty (.ofFault fault)) ≤
        min numeric.framing.limit Layout.largest
    | _ => false

theorem delivered_of_ranFor {J : List Entry} {t : Nat} {fault : Fault} (h : ranFor t fault J = true) :
    ∃ pending p, .delivered pending p ∈ J ∧ pending.ticket = t ∧
      numeric.framing.layout.frameLength (pending.request.toPacket.reply .empty (.ofFault fault)) ≤
        min numeric.framing.limit Layout.largest := by
  obtain ⟨e, mem, h⟩ := List.any_eq_true.mp h
  split at h
  · obtain ⟨ticket, fits⟩ := Bool.and_eq_true_iff.mp h
    exact ⟨_, _, mem, beq_iff_eq.mp ticket, of_decide_eq_true fits⟩
  · cases h

/-- How the session of a call ended, without a reply. -/
def endedHow (ticket : Nat) (J : List Entry) : Option Bool :=
  match (account ticket J).fate with
  | .closed _ => some true
  | .expired _ _ => some false
  | _ => none

theorem ended_of_endedHow {J : List Entry} {t : Nat} {closed : Bool} (h : endedHow t J = some closed) :
    ∃ r now, EndedBy J t r (if closed then .closed else .expired t now) := by
  have told := told_fate J t
  unfold endedHow at h
  split at h
  · rename_i r fate
    rw [fate] at told
    cases h
    exact ⟨r, 0, told⟩
  · rename_i r now fate
    rw [fate] at told
    cases h
    exact ⟨r, now, told⟩
  · cases h

/-- A peer could have said the same to the callbacks of either call. -/
theorem forsaken_replies_mirror_responses :
    (∃ pending p answer, .delivered pending p ∈ forsaken.journal ∧ pending.ticket = 0 ∧
      numeric.framing.Answer pending.request.toPacket (.fault .sessionClosed "connection closed before reply") answer ∧
      Heard numeric pending answer p) ∧
    ∃ pending p answer, .delivered pending p ∈ forsaken.journal ∧ pending.ticket = 1 ∧
      numeric.framing.Answer pending.request.toPacket (.fault .timeout (Fault.waitTimedOut ⟨5⟩).message) answer ∧
      Heard numeric pending answer p := by
  constructor
  · have asks : asksFor 0 (.id 7) none forsaken.journal = true := by decide +kernel
    have ran : ranFor 0 .closedWaiting forsaken.journal = true := by decide +kernel
    have how : endedHow 0 forsaken.journal = some true := by decide +kernel
    obtain ⟨m, callbacks, asked, route, -⟩ := asked_of_asksFor asks
    obtain ⟨pending, p, delivered, ticket, fits⟩ := delivered_of_ranFor ran
    obtain ⟨r, now, ended⟩ := ended_of_endedHow how
    rw [← ticket] at asked ended
    have suits : numeric.framing.layout.Suits m.route := route ▸ trivial
    obtain ⟨-, mirrors, -⟩ :=
      synthesized_replies_mirror_responses reachable_forsaken rfl asked suits (.run delivered)
    obtain ⟨answer, answered, heard⟩ := mirrors p r delivered ended fits
    exact ⟨pending, p, answer, delivered, ticket, answered, heard⟩
  · have asks : asksFor 1 (.id 7) (some ⟨5⟩) forsaken.journal = true := by decide +kernel
    have ran : ranFor 1 (.waitTimedOut ⟨5⟩) forsaken.journal = true := by decide +kernel
    have how : endedHow 1 forsaken.journal = some false := by decide +kernel
    obtain ⟨m, callbacks, asked, route, timed⟩ := asked_of_asksFor asks
    obtain ⟨pending, p, delivered, ticket, fits⟩ := delivered_of_ranFor ran
    obtain ⟨r, now, ended⟩ := ended_of_endedHow how
    rw [← ticket] at asked ended
    have suits : numeric.framing.layout.Suits m.route := route ▸ trivial
    obtain ⟨-, -, mirrors, -⟩ :=
      synthesized_replies_mirror_responses reachable_forsaken rfl asked suits (.run delivered)
    obtain ⟨limit, timed', mirrors⟩ := mirrors p r now delivered ended
    cases timed.symm.trans timed'
    obtain ⟨answer, answered, heard⟩ := mirrors fits
    exact ⟨pending, p, answer, delivered, ticket, answered, heard⟩

end Engine
end Switchboard
