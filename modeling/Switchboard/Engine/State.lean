import Switchboard.Engine.Program
import Switchboard.Packet.Issuer
import Switchboard.Router

/-! The state of one end of a connection, and the small steps that all its work is made of. Work that
    hands control to handlers may come back to the same connection, so a step is a function on the
    state that can also stop short: when such returns lie too deep, or a session's number comes up
    again while it is in use. -/

namespace Switchboard

/-! ### What is fixed when a connection is set up -/

inductive Verdict where
  | pass
  | stop
  deriving DecidableEq

/-- What a filter makes of its input. -/
structure Filtered (α : Type) where
  events : List Event := []
  value : α
  verdict : Except Fault Verdict := .ok .pass

/-- What an interceptor makes of a packet: the packet to go on with, or none when it keeps it. -/
structure Interception where
  events : List Event := []
  packet : Option Packet

/-- What looks at every packet before the filters do. -/
inductive Hook where
  | none
  /-- Responses end the calls they answer. -/
  | replies
  | custom (intercept : Packet → Interception)

/-- Who takes up the wait of an asynchronous call with a timeout. -/
inductive Spawner where
  /-- The runtime that the call is made on, if there is one. -/
  | ambient
  | keep
  /-- Nobody: the wait is dropped at once. -/
  | drop
  deriving DecidableEq

/-- Callbacks that wait for the reply to a request, under the ticket of their call. -/
structure Pending where
  ticket : Nat
  callbacks : List Program
  request : Parcel

inductive Session where
  /-- Whoever holds the ticket waits for the reply; not listening when nobody holds it any more. -/
  | waiting (ticket : Nat) (listening : Bool)
  | callback (pending : Pending)

def Session.ticket : Session → Nat
  | .waiting ticket _ => ticket
  | .callback pending => pending.ticket

/-- A session once nobody holds a ticket any more. -/
def Session.deafen (ticket : Nat) : Session → Session
  | .waiting t listening => .waiting t (listening && t != ticket)
  | entry => entry

/-- Sessions may be ended in the order in which they stand. -/
theorem perm_id (sessions : List (UInt64 × Session)) : (id sessions).Perm sessions := List.Perm.refl sessions

structure Setup where
  framing : Framing := {}
  dataFilters : List (Bytes → Filtered Bytes) := []
  packetFilters : List (Packet → Filtered Packet) := []
  router : Router Program := {}
  hook : Hook := .replies
  /-- Says of a load, the new packet included, that the packet is to be dropped. -/
  overloaded : Option (Int → Bool) := none
  peer : Option Peer := none
  /-- Runs around the callbacks of a request. -/
  responseFilter : Packet → Program := fun _ => .next .done
  spawner : Spawner := .keep
  /-- The order in which pending sessions are ended. -/
  sweep : List (UInt64 × Session) → List (UInt64 × Session) := id
  sweep_perm : ∀ sessions, (sweep sessions).Perm sessions := by exact perm_id

/-! ### What changes -/

/-- The calls that wait for a reply. After it is closed nothing is registered any more. -/
structure SessionTable where
  entries : List (UInt64 × Session) := []
  closed : Bool := false

namespace SessionTable

def find (table : SessionTable) (session : UInt64) : Option Session := table.entries.lookup session

def insert (table : SessionTable) (session : UInt64) (entry : Session) : SessionTable :=
  { table with entries := table.entries ++ [(session, entry)] }

def erase (table : SessionTable) (session : UInt64) : SessionTable :=
  { table with entries := table.entries.filter fun e => e.1 != session }

def holds (table : SessionTable) (ticket : Nat) : Bool :=
  table.entries.any fun e => e.2.ticket == ticket

end SessionTable

/-- What the far side does when a frame is written to it, before the writing returns. -/
inductive Reaction where
  | close
  | receive (frame : Except Fault Bytes) (event : Except Fault Unit → Event)

/-- What happens to the frames that are written. The far side may behave differently each time, so it is
    told how many frames were written before. -/
structure Line where
  kept : Bool := true
  reactions : Nat → Bytes → List Reaction := fun _ _ => []
  result : Nat → Bytes → Except Fault Unit := fun _ _ => .ok ()

/-- An asynchronous call with a timeout that waits for its reply. -/
structure Wait where
  pending : Pending
  limit : Duration
  /-- When the wait ends, once it has begun. -/
  deadline : Option Nat := none

inductive CallPhase where
  | created
  | waiting (session : UInt64) (deadline : Option (Nat × Duration))

structure Call where
  ticket : Nat
  message : Outbound
  phase : CallPhase := .created

/-- What happened on a connection. -/
inductive Entry where
  | event (event : Event)
  | wrote (frame : Bytes)
  | weighed (load : Int) (dropped : Bool)
  | called (ticket : Nat) (message : Outbound)
  | calledAsync (ticket : Nat) (message : Outbound) (callbacks : List Program)
  /-- The request of a call has a session in the table. -/
  | registered (ticket : Nat) (request : Packet)
  /-- Someone began to wait for the reply to a request that was written. -/
  | began (ticket : Nat) (now : Nat)
  /-- The request of a call could not be written. -/
  | unsent (ticket : Nat) (fault : Fault)
  /-- A response met a session of the table and ended it. -/
  | matched (ticket : Nat) (packet : Packet)
  | unmatched (packet : Packet)
  /-- The time of a call was found to be over while its session was in the table. -/
  | expired (ticket : Nat) (now : Nat)
  | cancelled (ticket : Nat)
  /-- A session was taken out of the table, not by a response. -/
  | removed (ticket : Nat)
  | closed
  /-- An inbound packet goes on to the packet filters. -/
  | screened (packet : Packet)
  /-- An inbound packet meets its chain of handlers. -/
  | routed (packet : Packet)
  /-- Callbacks are run with a packet. -/
  | delivered (pending : Pending) (packet : Packet)
  /-- What a packet was given to is done with it. -/
  | released (packet : Packet)
  | started (position : Nat)
  /-- A handler was told the load. -/
  | looked (load : Int)
  | returned (ticket : Nat) (result : Except Fault Unit)
  | finished (ticket : Nat) (result : Except Fault Bytes)

/-- One end of a connection. -/
structure Engine where
  issuer : Issuer := {}
  contexts : ContextPool := {}
  table : SessionTable := {}
  load : Int := 0
  /-- How many calls were made; each has the number of those before it as its ticket. -/
  tickets : Nat := 0
  /-- Replies handed to the holders of tickets, who have not collected them. -/
  mail : List (Nat × Parcel) := []
  calls : List Call := []
  waits : List Wait := []
  line : Line := {}
  writes : Nat := 0
  /-- There is a runtime to take up waits. -/
  hosted : Bool := true
  /-- What happened, latest first. -/
  journal : List Entry := []

instance : Inhabited Engine := ⟨{}⟩

/-- Why work stopped short. -/
inductive Halt where
  | tooDeep
  /-- A request's number was in the table, after so many numbers were drawn. -/
  | sessionInUse (session : UInt64) (drawn : Nat)
  deriving DecidableEq

/-- Work on a connection. -/
abbrev EngineM := StateT Engine (Except Halt)

namespace Engine

/-! ### Records and pools -/

/-- The connection once something more has happened. -/
def note (e : Entry) (s : Engine) : Engine := { s with journal := e :: s.journal }

def record (e : Entry) : EngineM Unit := modify (note e)

def reportAll : List Event → EngineM Unit
  | [] => pure ()
  | e :: rest => do
    record (.event e)
    reportAll rest

def takeParcel : EngineM Parcel :=
  modifyGet fun s =>
    let (p, issuer) := s.issuer.get
    (p, { s with issuer })

def putParcel (p : Parcel) : EngineM Unit := modify fun s => { s with issuer := s.issuer.put p }

/-- Takes out a packet for a message. -/
def issue (command : Command) (m : Outbound) : EngineM Parcel :=
  modifyGet fun s =>
    let (p, issuer) := s.issuer.issue command m.route m.metadata
    (p.edit fun q => { q with reserved := m.reserved }, { s with issuer })

def answer (request : Packet) (metadata : Metadata) : EngineM Parcel :=
  modifyGet fun s =>
    let (p, issuer) := s.issuer.answer request metadata
    (p, { s with issuer })

def takeContext : EngineM Context :=
  modifyGet fun s =>
    let (c, contexts) := s.contexts.get
    (c, { s with contexts })

def putContext (c : Context) : EngineM Unit :=
  modify fun s => { s with contexts := s.contexts.put c }

def counts (s : Engine) : PoolCounts :=
  { gets := s.issuer.pool.gets, puts := s.issuer.pool.puts, packets := s.issuer.pool.idle.length
    contexts := s.contexts.idle.length }

/-- Gives a context's packet back, once; a packet that counts towards the load no longer does. -/
def release (c : Context) : EngineM Context :=
  if c.released then pure c
  else do
    putParcel c.parcel
    modify fun s =>
      { s with
        load := if c.counted then s.load - 1 else s.load
        journal := .released c.parcel.toPacket :: s.journal }
    pure c.release

/-! ### Sessions -/

def openTicket : EngineM Nat := modifyGet fun s => (s.tickets, { s with tickets := s.tickets + 1 })

inductive Registration where
  | accepted
  | refused
  deriving DecidableEq

/-- The connection with a session for a request in its table. -/
def enroll (entry : Session) (request : Packet) (s : Engine) : Engine :=
  { s with
    table := s.table.insert request.session entry
    journal := .registered entry.ticket request :: s.journal }

/-- Registers a session for a request under the request's number, unless the table is closed. -/
def register (entry : Session) (request : Packet) : EngineM Registration := do
  let s ← get
  if s.table.closed then pure .refused
  else if (s.table.find request.session).isSome then throw (.sessionInUse request.session s.issuer.drawn)
  else
    modify (enroll entry request)
    pure .accepted

def takeSession (session : UInt64) : EngineM (Option Session) :=
  modifyGet fun s => (s.table.find session, { s with table := s.table.erase session })

/-- The connection without a session, which gets no reply. -/
def strike (session : UInt64) (s : Engine) : Engine :=
  { s with
    table := s.table.erase session
    journal := match s.table.find session with
      | some entry => .removed entry.ticket :: s.journal
      | none => s.journal }

/-- Takes a session that gets no reply out of the table, if it is there. -/
def discard (session : UInt64) : EngineM (Option Session) :=
  modifyGet fun s => (s.table.find session, s.strike session)

/-- Takes all sessions out of the table and closes it. -/
def drain : EngineM (List (UInt64 × Session)) :=
  modifyGet fun s => (s.table.entries, { s with table := { entries := [], closed := true } })

/-- The connection without the replies that were handed to the holder of a ticket. -/
def unmail (ticket : Nat) (s : Engine) : Engine :=
  { s with mail := s.mail.filter fun e => e.1 != ticket }

/-- Collects the reply that was handed to the holder of a ticket, if there is one. -/
def takeMail (ticket : Nat) : EngineM (Option Parcel) :=
  modifyGet fun s => (s.mail.lookup ticket, s.unmail ticket)

/-- The connection once nobody holds a ticket any more: a reply handed over is lost, and one to come
    finds nobody. -/
def deafen (ticket : Nat) (s : Engine) : Engine :=
  { s.unmail ticket with
    table := { s.table with entries := s.table.entries.map fun e => (e.1, e.2.deafen ticket) } }

/-- Gives up a ticket that a session waits for. -/
def stopListening (ticket : Nat) : EngineM Unit := modify (deafen ticket)

end Engine
end Switchboard
