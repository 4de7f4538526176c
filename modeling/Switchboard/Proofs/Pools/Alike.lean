import Switchboard.Proofs.FrameRoundTrip
import Switchboard.Proofs.Engine.Steps

/-! Two connections that differ in what their pools keep for reuse. What is kept is clean: a packet that was used is
    blank, and a context that was used knows no peer. So what is taken out of either pool is the same once it is given
    its content, and the same work on both ends in the same way. -/

namespace Switchboard

/-! ### What does not show -/

/-- What was seen, but for how much the pools keep. -/
def Sight.veil : Sight → Sight
  | .counts c => .counts { c with packets := 0, contexts := 0 }
  | sight => sight

/-- What happened, but for how much the pools keep. -/
def Entry.veil : Entry → Entry
  | .event e => .event { e with sight := e.sight.veil }
  | e => e

/-- The same packet, whatever space it has to be written into. -/
def Parcel.Like (p q : Parcel) : Prop := q.toPacket = p.toPacket

/-- The same packet, whatever space it has, with the same beside it. -/
inductive Parcel.Likewise {α : Type} (x : Parcel × α) : Parcel × α → Prop where
  | intro {q : Parcel} (like : x.1.Like q) : Likewise x (q, x.2)

/-- The same context, whatever space its packet has. -/
inductive Context.Like (c : Context) : Context → Prop where
  | intro {q : Parcel} (like : c.parcel.Like q) : Like c { c with parcel := q }

/-- Whatever a pool keeps is blank. -/
def PacketPool.Clean (pool : PacketPool) : Prop := ∀ p ∈ pool.idle, p.toPacket = .blank

/-- Whatever a pool keeps has no peer. -/
def ContextPool.Clean (pool : ContextPool) : Prop := ∀ c ∈ pool.idle, c.peer = none

/-- Two clean pools that gave out and got back as many packets. -/
structure PacketPool.Like (a b : PacketPool) : Prop where
  gets : b.gets = a.gets
  puts : b.puts = a.puts
  clean : a.Clean ∧ b.Clean

/-- Two clean pools that gave out and got back as many contexts. -/
structure ContextPool.Like (a b : ContextPool) : Prop where
  gets : b.gets = a.gets
  puts : b.puts = a.puts
  clean : a.Clean ∧ b.Clean

/-- The replies that were handed over, without the space that they came in. -/
def opened (mail : List (Nat × Parcel)) : List (Nat × Packet) := mail.map fun e => (e.1, e.2.toPacket)

/-- One connection is another but for its pools, the space of the replies that were handed over, and how much the pools
    kept when someone looked. -/
inductive Engine.Alike (s : Engine) : Engine → Prop where
  | intro {pool : PacketPool} {contexts : ContextPool} {mail : List (Nat × Parcel)} {journal : List Entry}
    (packets : s.issuer.pool.Like pool) (holders : s.contexts.Like contexts) (replies : opened mail = opened s.mail)
    (story : journal.map Entry.veil = s.journal.map Entry.veil) :
    Alike s { s with issuer := { s.issuer with pool }, contexts, mail, journal }

/-! ### Pools -/

namespace PacketPool

variable {a b : PacketPool}

theorem Clean.get (clean : a.Clean) : a.get.1.toPacket = .blank ∧ a.get.2.Clean := by
  unfold PacketPool.get
  cases idle : a.idle with
  | nil => exact ⟨rfl, List.forall_mem_nil _⟩
  | cons p rest => exact List.forall_mem_cons.mp fun q mem => clean q (idle ▸ mem)

theorem Clean.put (clean : a.Clean) (p : Parcel) : (a.put p).Clean := by
  unfold PacketPool.put
  dsimp only
  split
  · exact clean
  split
  · exact List.forall_mem_cons.mpr ⟨rfl, clean⟩
  · exact clean

theorem Like.get (like : a.Like b) : a.get.1.Like b.get.1 ∧ a.get.2.Like b.get.2 := by
  obtain ⟨first, left⟩ := like.clean.1.get
  obtain ⟨first', left'⟩ := like.clean.2.get
  refine ⟨first'.trans first.symm, ?_, ?_, left, left'⟩
  · rw [gets_get, gets_get, like.gets]
  · rw [puts_get, puts_get, like.puts]

theorem Like.put (like : a.Like b) (p q : Parcel) : (a.put p).Like (b.put q) := by
  refine ⟨?_, ?_, like.clean.1.put p, like.clean.2.put q⟩
  · rw [gets_put, gets_put, like.gets]
  · rw [puts_put, puts_put, like.puts]

end PacketPool

namespace ContextPool

variable {a b : ContextPool}

theorem Clean.get (clean : a.Clean) : a.get.1.peer = none ∧ a.get.2.Clean := by
  unfold ContextPool.get
  cases idle : a.idle with
  | nil => exact ⟨rfl, List.forall_mem_nil _⟩
  | cons c rest => exact List.forall_mem_cons.mp fun d mem => clean d (idle ▸ mem)

theorem Clean.put (clean : a.Clean) (c : Context) : (a.put c).Clean := by
  unfold ContextPool.put
  dsimp only
  split
  · exact List.forall_mem_cons.mpr ⟨rfl, clean⟩
  · exact clean

theorem Like.get (like : a.Like b) : a.get.1.peer = none ∧ b.get.1.peer = none ∧ a.get.2.Like b.get.2 := by
  obtain ⟨first, left⟩ := like.clean.1.get
  obtain ⟨first', left'⟩ := like.clean.2.get
  refine ⟨first, first', ?_, ?_, left, left'⟩
  · rw [gets_get, gets_get, like.gets]
  · rw [puts_get, puts_get, like.puts]

theorem Like.put (like : a.Like b) (c d : Context) : (a.put c).Like (b.put d) := by
  refine ⟨?_, ?_, like.clean.1.put c, like.clean.2.put d⟩
  · rw [gets_put, gets_put, like.gets]
  · rw [puts_put, puts_put, like.puts]

end ContextPool

/-! ### Packets and contexts -/

namespace Parcel

variable {p q : Parcel}

theorem Like.edit (like : p.Like q) (change : Packet → Packet) : (p.edit change).Like (q.edit change) :=
  congrArg change like

theorem Like.takeScratch (like : p.Like q) : q.takeScratch = p.takeScratch := by
  have same : q.toPacket = p.toPacket := like
  unfold Parcel.takeScratch
  rw [same]

theorem Likewise.of {α : Type} {x y : Parcel × α} (like : x.1.Like y.1) (same : y.2 = x.2) : Likewise x y := by
  obtain ⟨q, b⟩ := y
  cases same
  exact .intro like

theorem Like.load (like : p.Like q) (content : Except Fault Content) : Likewise (p.load content) (q.load content) := by
  have same : q.toPacket = p.toPacket := like
  unfold Parcel.load
  rw [same]
  exact .of rfl rfl

theorem Like.frame (like : p.Like q) (f : Framing) : Likewise (p.frame f) (q.frame f) := by
  have same : q.toPacket = p.toPacket := like
  refine .of ?_ ?_
  · unfold Like
    rw [frame_toPacket, frame_toPacket, same]
  · rw [frame_eq_encode, frame_eq_encode, same]

theorem Like.unframe (like : p.Like q) (f : Framing) (data : Bytes) : Likewise (p.unframe f data) (q.unframe f data) := by
  unfold Parcel.unframe
  cases f.decode data with
  | error fault => exact .of like rfl
  | ok packet => exact .of rfl rfl

end Parcel

namespace Context

variable {c d : Context} {p q : Parcel}

/-- Contexts that know no peer are the same once they are given the same packet. -/
theorem like_bind (own : c.peer = none) (other : d.peer = none) (like : p.Like q) (counted : Bool) :
    (c.bind p counted).Like (d.bind q counted) := by
  have same : d.bind q counted = { c.bind p counted with parcel := q } := by
    unfold bind
    rw [own, other]
  rw [same]
  exact .intro like

theorem Like.edit (like : c.Like d) (change : Packet → Packet) : (c.edit change).Like (d.edit change) := by
  obtain ⟨like⟩ := like
  exact .intro (like.edit change)

theorem Like.abort (like : c.Like d) : c.abort.Like d.abort := by
  obtain ⟨like⟩ := like
  exact .intro like

theorem Like.setPeer (like : c.Like d) (peer : Option Peer) : (c.setPeer peer).Like (d.setPeer peer) := by
  obtain ⟨like⟩ := like
  exact .intro like

theorem Like.enter (like : c.Like d) : c.enter.Like d.enter := by
  obtain ⟨like⟩ := like
  exact .intro like

theorem Like.leave (like : c.Like d) : c.leave.Like d.leave := by
  obtain ⟨like⟩ := like
  exact .intro like

theorem Like.start (like : c.Like d) : c.start.Like d.start := by
  obtain ⟨like⟩ := like
  exact .intro like

/-- What a handler sees of a context. -/
theorem Like.view (like : c.Like d) : d.parcel.toPacket = c.parcel.toPacket ∧ d.aborted = c.aborted ∧
    d.peer = c.peer := by
  obtain ⟨like⟩ := like
  exact ⟨like, rfl, rfl⟩

theorem Like.mayRespond (like : c.Like d) : d.mayRespond = c.mayRespond := by
  obtain ⟨like⟩ := like
  have command := congrArg Packet.command like
  unfold Context.mayRespond
  dsimp only
  rw [command]

end Context

/-! ### Replies -/

theorem lookup_map_snd {κ ν ν' : Type} [BEq κ] (f : ν → ν') (l : List (κ × ν)) (k : κ) :
    (l.map fun e => (e.1, f e.2)).lookup k = (l.lookup k).map f := by
  induction l with
  | nil => rfl
  | cons e rest ih =>
    rw [List.map_cons, List.lookup_cons, List.lookup_cons, ih]
    cases k == e.1 <;> rfl

/-- Without their space, the replies for a ticket are found as before. -/
theorem lookup_opened (mail : List (Nat × Parcel)) (ticket : Nat) :
    (opened mail).lookup ticket = (mail.lookup ticket).map (·.toPacket) := lookup_map_snd _ mail ticket

theorem opened_filter {mail mail' : List (Nat × Parcel)} (replies : opened mail' = opened mail) (ticket : Nat) :
    opened (mail'.filter fun e => e.1 != ticket) = opened (mail.filter fun e => e.1 != ticket) := by
  have kept : ∀ mail : List (Nat × Parcel), opened (mail.filter fun e => e.1 != ticket) =
      (opened mail).filter fun e => e.1 != ticket := fun mail => by
    unfold opened
    rw [List.filter_map]
    rfl
  rw [kept, kept, replies]

/-! ### Work on two connections -/

namespace Engine

variable {α β α' β' : Type} {s t : Engine}

/-- Work comes to ends that correspond to each other, or stops short for the same reason. -/
inductive Agree (R : α → β → Prop) : Except Halt (α × Engine) → Except Halt (β × Engine) → Prop where
  | ends {a b s t} (holds : R a b) (alike : s.Alike t) : Agree R (.ok (a, s)) (.ok (b, t))
  | halts (halt : Halt) : Agree R (.error halt) (.error halt)

/-- Work on one connection agrees with work on another wherever the connections are alike. -/
def Twins (R : α → β → Prop) (m : EngineM α) (n : EngineM β) : Prop := ∀ s t, s.Alike t → Agree R (m s) (n t)

namespace Twins

variable {R : α → β → Prop} {S : α' → β' → Prop} {m : EngineM α} {n : EngineM β} {k : α → EngineM α'}
  {l : β → EngineM β'}

theorem pure {a : α} {b : β} (holds : R a b) : Twins R (Pure.pure a) (Pure.pure b) := fun _ _ alike =>
  .ends holds alike

theorem throw (halt : Halt) : Twins R (throw halt) (throw halt) := fun _ _ _ => .halts halt

theorem get : Twins Alike get get := fun _ _ alike => .ends alike alike

theorem bind (first : Twins R m n) (rest : ∀ a b, R a b → Twins S (k a) (l b)) : Twins S (m >>= k) (n >>= l) := by
  intro s t alike
  change Agree S (m s >>= fun x => k x.1 x.2) (n t >>= fun x => l x.1 x.2)
  have agree := first s t alike
  generalize m s = x, n t = y at agree ⊢
  cases agree with
  | ends holds alike => exact rest _ _ holds _ _ alike
  | halts halt => exact .halts halt

/-- What comes of the first work is the same for both. -/
theorem andThen {m n : EngineM α} {k : α → EngineM α'} {l : α → EngineM β'} (first : Twins Eq m n)
    (rest : ∀ a, Twins S (k a) (l a)) : Twins S (m >>= k) (n >>= l) :=
  first.bind fun a _ same => same ▸ rest a

theorem map {m n : EngineM α} (first : Twins Eq m n) (f : α → α') : Twins Eq (f <$> m) (f <$> n) :=
  first.andThen fun _ => .pure rfl

theorem modify {f g : Engine → Engine} (alike : ∀ s t, s.Alike t → (f s).Alike (g t)) :
    Twins Eq (modify f : EngineM PUnit) (modify g) := fun s t h => .ends rfl (alike s t h)

theorem modifyGet {f : Engine → α × Engine} {g : Engine → β × Engine}
    (alike : ∀ s t, s.Alike t → R (f s).1 (g t).1 ∧ (f s).2.Alike (g t).2) :
    Twins R (modifyGet f : EngineM α) (modifyGet g) := fun s t h => .ends (alike s t h).1 (alike s t h).2

end Twins

/-! ### Small steps -/

variable {c d : Context} {p q : Parcel}

theorem record_twins (e : Entry) : Twins Eq (record e) (record e) := .modify fun _ _ alike => by
  obtain ⟨packets, holders, replies, story⟩ := alike
  exact .intro packets holders replies (congrArg (e.veil :: ·) story)

theorem reportAll_twins (events : List Event) : Twins Eq (reportAll events) (reportAll events) := by
  induction events with
  | nil => exact .pure rfl
  | cons e rest ih => exact (record_twins (.event e)).andThen fun _ => ih

/-- A report of the counts is the same but for what the pools keep. -/
theorem reportCounts_twins (source : Source) :
    Twins Eq (do record (.event { source with sight := .counts (← get).counts }))
      (do record (.event { source with sight := .counts (← get).counts })) := by
  refine Twins.get.bind fun s t alike => .modify fun _ _ alike' => ?_
  obtain ⟨packets, holders, -, -⟩ := alike
  obtain ⟨packets', holders', replies, story⟩ := alike'
  refine .intro packets' holders' replies (List.cons_eq_cons.mpr ⟨?_, story⟩)
  unfold Entry.veil Sight.veil counts
  dsimp only
  rw [packets.gets, packets.puts]

theorem takeParcel_twins : Twins Parcel.Like takeParcel takeParcel := .modifyGet fun _ _ alike => by
  obtain ⟨packets, holders, replies, story⟩ := alike
  exact ⟨packets.get.1, .intro packets.get.2 holders replies story⟩

theorem putParcel_twins (p q : Parcel) : Twins Eq (putParcel p) (putParcel q) := .modify fun _ _ alike => by
  obtain ⟨packets, holders, replies, story⟩ := alike
  exact .intro (packets.put p q) holders replies story

theorem putBack_twins {rel : α → β → Prop} {a : α} {b : β} (p q : Parcel) (same : rel a b) :
    Twins rel (putParcel p >>= fun _ => pure a) (putParcel q >>= fun _ => pure b) :=
  (putParcel_twins p q).andThen fun _ => .pure same

theorem issue_twins (command : Command) (m : Outbound) : Twins Parcel.Like (issue command m) (issue command m) :=
  .modifyGet fun _ _ alike => by
    obtain ⟨packets, holders, replies, story⟩ := alike
    exact ⟨(packets.get.1.edit _).edit _, .intro packets.get.2 holders replies story⟩

theorem answer_twins (request : Packet) (metadata : Metadata) :
    Twins Parcel.Like (answer request metadata) (answer request metadata) := .modifyGet fun _ _ alike => by
  obtain ⟨packets, holders, replies, story⟩ := alike
  exact ⟨packets.get.1.edit _, .intro packets.get.2 holders replies story⟩

theorem takeContext_twins : Twins (fun c d => c.peer = none ∧ d.peer = none) takeContext takeContext :=
  .modifyGet fun _ _ alike => by
    obtain ⟨packets, holders, replies, story⟩ := alike
    obtain ⟨own, other, left⟩ := holders.get
    exact ⟨⟨own, other⟩, .intro packets left replies story⟩

theorem putContext_twins (c d : Context) : Twins Eq (putContext c) (putContext d) := .modify fun _ _ alike => by
  obtain ⟨packets, holders, replies, story⟩ := alike
  exact .intro packets (holders.put c d) replies story

theorem release_twins (like : c.Like d) : Twins Context.Like (release c) (release d) := by
  obtain ⟨like⟩ := like
  unfold release
  dsimp only
  split
  · exact .pure (.intro like)
  · refine (putParcel_twins _ _).andThen fun _ => Twins.andThen (.modify fun _ _ alike => ?_) fun _ => .pure (.intro rfl)
    obtain ⟨packets, holders, replies, story⟩ := alike
    exact .intro packets holders replies (List.cons_eq_cons.mpr ⟨congrArg Entry.released like, story⟩)

/-! ### Sessions -/

theorem Alike.unmail (alike : s.Alike t) (ticket : Nat) : (s.unmail ticket).Alike (t.unmail ticket) := by
  obtain ⟨packets, holders, replies, story⟩ := alike
  exact .intro packets holders (opened_filter replies ticket) story

theorem takeMail_twins (ticket : Nat) :
    Twins (Option.Rel Parcel.Like) (takeMail ticket) (takeMail ticket) := .modifyGet fun s t alike => by
  refine ⟨?_, alike.unmail ticket⟩
  obtain ⟨-, -, replies, -⟩ := alike
  rename_i mail _
  -- The replies for a ticket are the same but for the space that they came in.
  have same := congrArg (List.lookup ticket) replies
  rw [lookup_opened, lookup_opened] at same
  dsimp only
  cases found : s.mail.lookup ticket with
  | none =>
    rw [found] at same
    rw [Option.map_eq_none_iff.mp same]
    exact .none
  | some p =>
    rw [found] at same
    obtain ⟨q, found', like⟩ := Option.map_eq_some_iff.mp same
    rw [found']
    exact .some like

theorem Alike.strike (alike : s.Alike t) (session : UInt64) : (s.strike session).Alike (t.strike session) := by
  obtain ⟨packets, holders, replies, story⟩ := alike
  unfold strike
  dsimp only
  cases s.table.find session with
  | none => exact .intro packets holders replies story
  | some entry => exact .intro packets holders replies (congrArg (_ :: ·) story)

theorem discard_twins (session : UInt64) : Twins Eq (discard session) (discard session) := .modifyGet fun s t alike => by
  refine ⟨?_, alike.strike session⟩
  obtain ⟨-, -, -, -⟩ := alike
  rfl

theorem openTicket_twins : Twins Eq openTicket openTicket := .modifyGet fun _ _ alike => by
  obtain ⟨packets, holders, replies, story⟩ := alike
  exact ⟨rfl, .intro packets holders replies story⟩

theorem takeSession_twins (session : UInt64) : Twins Eq (takeSession session) (takeSession session) :=
  .modifyGet fun _ _ alike => by
    obtain ⟨packets, holders, replies, story⟩ := alike
    exact ⟨rfl, .intro packets holders replies story⟩

theorem drain_twins : Twins Eq drain drain := .modifyGet fun _ _ alike => by
  obtain ⟨packets, holders, replies, story⟩ := alike
  exact ⟨rfl, .intro packets holders replies story⟩

theorem stopListening_twins (ticket : Nat) : Twins Eq (stopListening ticket) (stopListening ticket) :=
  .modify fun _ _ alike => by
    obtain ⟨packets, holders, replies, story⟩ := alike
    exact .intro packets holders (opened_filter replies ticket) story

theorem register_twins (entry : Session) (request : Packet) :
    Twins Eq (register entry request) (register entry request) := by
  refine Twins.get.bind fun s t alike => ?_
  obtain ⟨-, -, -, -⟩ := alike
  dsimp only
  split
  · exact .pure rfl
  split
  · exact .throw _
  · refine Twins.andThen (.modify fun _ _ alike => ?_) fun _ => .pure rfl
    obtain ⟨packets, holders, replies, story⟩ := alike
    exact .intro packets holders replies (congrArg (_ :: ·) story)

end Engine
end Switchboard
