import Mathlib.Data.Multiset.Filter
import Switchboard.Proofs.Engine.Work

/-! All that can happen on a connection, one move at a time. Work that is under way holds packets, calls
    and sessions that are neither in the pool nor in the connection's state; they are the work's hands.
    A move takes some of what is in hand and gives something back, and leaves the rest alone, so that
    work within other work has the same moves. Every invariant is proved of the moves. -/

namespace Switchboard

/-- The packet that answers a request with a fault, without metadata. -/
def Packet.faultReply (request : Packet) (fault : Fault) : Packet :=
  (Packet.blank.answer request .empty).carry (.ofFault fault)

/-- The callbacks of a session. -/
def Session.pending? : Session → Option Pending
  | .waiting _ _ => none
  | .callback pending => some pending

/-- The callbacks of sessions. -/
def pledges (sessions : List (UInt64 × Session)) : List Pending := sessions.filterMap fun e => e.2.pending?

theorem mem_pledges {sessions : List (UInt64 × Session)} {pending : Pending} :
    pending ∈ pledges sessions ↔ ∃ n, (n, Session.callback pending) ∈ sessions := by
  unfold pledges
  constructor
  · intro h
    obtain ⟨⟨n, entry⟩, hmem, hentry⟩ := List.mem_filterMap.mp h
    cases entry with
    | waiting _ _ => cases hentry
    | callback p =>
      cases hentry
      exact ⟨n, hmem⟩
  · rintro ⟨n, hmem⟩
    exact List.mem_filterMap.mpr ⟨_, hmem, rfl⟩

/-- A message that could be encoded. -/
def Outbound.Encodes (m : Outbound) : Prop := ∃ octets, m.body = .ok octets

namespace Engine

/-! ### What work holds -/

/-- Something that work under way holds, or that the state holds for it. -/
inductive Token where
  /-- A packet that was taken out of the pool. -/
  | parcel
  /-- A call in progress. -/
  | calling (c : Call)
  /-- A call whose request is registered and being written. -/
  | sending (c : Call) (session : UInt64)
  /-- A registered call whose result is decided. -/
  | ending (c : Call) (session : UInt64) (result : Except Fault Bytes)
  /-- A wait in progress. -/
  | watching (w : Wait)
  /-- An asynchronous call that is not registered. -/
  | asked (ticket : Nat) (m : Outbound) (callbacks : List Program)
  /-- An asynchronous call whose callbacks were put into the table and whose request is being written. -/
  | placed (m : Outbound) (pending : Pending)
  /-- An asynchronous call that is registered for a wait and whose request is being written. -/
  | promised (m : Outbound) (pending : Pending)
  /-- An asynchronous call about to come back to its caller. -/
  | answering (ticket : Nat) (result : Except Fault Unit)
  /-- Callbacks that closing took out of the table and has yet to run. -/
  | owed (pending : Pending)

/-- What work under way holds. -/
abbrev Hands := Multiset Token

/-- The callbacks that closing takes out of the table. -/
def owing (sessions : List (UInt64 × Session)) : Hands := ↑((pledges sessions).map Token.owed)

theorem owing_cons_waiting {n : UInt64} {ticket : Nat} {listening : Bool} {rest : List (UInt64 × Session)} :
    owing ((n, .waiting ticket listening) :: rest) = owing rest := rfl

theorem owing_cons_callback {n : UInt64} {pending : Pending} {rest : List (UInt64 × Session)} :
    owing ((n, .callback pending) :: rest) = .owed pending ::ₘ owing rest := rfl

/-- The packets that are left behind by a session whose request was not written. -/
def orphans : Session → Hands
  | .waiting _ _ => 0
  | .callback _ => {.parcel}

/-! ### Moves -/

/-- The time limit of a call that began to wait at some time. -/
def deadlineFrom (now : Nat) (m : Outbound) : Option (Nat × Duration) :=
  m.timeout.map fun limit => (now + limit.nanoseconds, limit)

/-- An entry is about no call. A response is never screened where responses are intercepted. -/
def Plain (setup : Setup) : Entry → Prop
  | .event _ | .wrote _ | .weighed _ _ | .routed _ | .released _ | .started _ | .looked _ => True
  | .screened p => setup.hook = .replies → p.command ≠ .response
  | _ => False

/-- The state once one number more was drawn. -/
def draw (s : Engine) : Engine := { s with issuer := s.issuer.nextSession.2 }

/-- A request under the next number may be enrolled. -/
structure Enrolls (s : Engine) (request : Packet) : Prop where
  isOpen : s.table.closed = false
  free : s.table.find request.session = none
  number : request.session = UInt64.ofNat (s.issuer.drawn + 1)

/-- One thing that can happen on a connection: what it takes from the hands, the state after it, and what
    it gives to the hands. -/
inductive Move (setup : Setup) (s : Engine) : Hands → Engine → Hands → Prop where
  -- Packets, numbers, contexts, the load and the line.
  | take : Move setup s 0 { s with issuer := s.issuer.get.2 } {.parcel}
  | put (p : Parcel) : Move setup s {.parcel} { s with issuer := s.issuer.put p } 0
  | draw : Move setup s 0 s.draw 0
  | contexts (contexts : ContextPool) : Move setup s 0 { s with contexts } 0
  | load (load : Int) : Move setup s 0 { s with load } 0
  | writes (writes : Nat) : Move setup s 0 { s with writes } 0
  | note {e : Entry} (plain : Plain setup e) : Move setup s 0 (s.note e) 0
  -- Calls and waits are made, taken in hand and left in progress.
  | call (m : Outbound) :
    Move setup s 0
      { s with
        tickets := s.tickets + 1, calls := s.calls ++ [{ ticket := s.tickets, message := m }]
        journal := .called s.tickets m :: s.journal } 0
  | ask (m : Outbound) (callbacks : List Program) :
    Move setup s 0
      { s with tickets := s.tickets + 1, journal := .calledAsync s.tickets m callbacks :: s.journal }
      {.asked s.tickets m callbacks}
  | takeCall {ticket : Nat} {c : Call} (found : s.calls.find? (fun c => c.ticket == ticket) = some c) :
    Move setup s 0 { s with calls := s.calls.filter fun c => c.ticket != ticket } {.calling c}
  | keepCall (c : Call) : Move setup s {.calling c} { s with calls := s.calls ++ [c] } 0
  | takeWait {ticket : Nat} {w : Wait} (found : s.waits.find? (fun w => w.pending.ticket == ticket) = some w) :
    Move setup s 0 { s with waits := s.waits.filter fun w => w.pending.ticket != ticket } {.watching w}
  | keepWait (w : Wait) : Move setup s {.watching w} { s with waits := s.waits ++ [w] } 0
  -- Requests are registered.
  | enrollCall {c : Call} {request : Packet} (phase : c.phase = .created) (encodes : c.message.Encodes)
      (enrolls : Enrolls s request) :
    Move setup s {.calling c} (s.draw.enroll (.waiting c.ticket true) request) {.sending c request.session}
  | enrollCallbacks {m : Outbound} {pending : Pending} (patient : m.timeout = none)
      (enrolls : Enrolls s pending.request.toPacket) :
    Move setup s {.parcel, .asked pending.ticket m pending.callbacks}
      (s.draw.enroll (.callback pending) pending.request.toPacket) {.placed m pending}
  | enrollWait {m : Outbound} {pending : Pending} (timed : m.timeout.isSome)
      (enrolls : Enrolls s pending.request.toPacket) :
    Move setup s {.parcel, .asked pending.ticket m pending.callbacks}
      (s.draw.enroll (.waiting pending.ticket true) pending.request.toPacket) {.promised m pending}
  -- Responses are intercepted.
  | matchCallbacks {p : Packet} {pending : Pending} (response : p.command = .response)
      (found : s.table.find p.session = some (.callback pending)) :
    Move setup s {.parcel}
      { s with
        table := s.table.erase p.session
        journal := .delivered pending p :: .matched pending.ticket p :: s.journal }
      {.parcel, .parcel}
  | matchWaiting {p : Parcel} {ticket : Nat} (response : p.command = .response)
      (found : s.table.find p.session = some (.waiting ticket true)) :
    Move setup s {.parcel}
      { s with
        table := s.table.erase p.session, mail := s.mail ++ [(ticket, p)]
        journal := .matched ticket p.toPacket :: s.journal } 0
  | matchNobody {p : Packet} {ticket : Nat} (response : p.command = .response)
      (found : s.table.find p.session = some (.waiting ticket false)) :
    Move setup s 0
      { s with table := s.table.erase p.session, journal := .matched ticket p :: s.journal } 0
  | pass {p : Packet} (response : p.command = .response) (missing : s.table.find p.session = none) :
    Move setup s 0 (s.note (.unmatched p)) 0
  -- The connection is closed.
  | close :
    Move setup s 0
      { s with table := { entries := [], closed := true }, journal := .closed :: s.journal }
      (owing s.table.entries)
  | settle (pending : Pending) :
    Move setup s {.parcel, .owed pending}
      (s.note (.delivered pending (pending.request.toPacket.faultReply .closedWaiting)))
      {.parcel, .parcel}
  -- Calls are decided and end.
  | refuseCall {c : Call} {fault : Fault} (phase : c.phase = .created)
      (reason : c.message.body = .error fault ∨
        c.message.Encodes ∧ s.table.closed = true ∧ fault = .notSent c.message.route) :
    Move setup s {.calling c} (s.note (.finished c.ticket (.error fault))) 0
  | beginCall (c : Call) (session : UInt64) (now : Nat) :
    Move setup s {.sending c session} (s.note (.began c.ticket now))
      {.calling { c with phase := .waiting session (deadlineFrom now c.message) }}
  | failCall (c : Call) (session : UInt64) (fault : Fault) :
    Move setup s {.sending c session}
      ((((s.note (.unsent c.ticket fault)).note (.finished c.ticket (.error fault))).strike session).unmail
        c.ticket) 0
  | collect {c : Call} {session : UInt64} {deadline : Option (Nat × Duration)} {p : Parcel}
      (phase : c.phase = .waiting session deadline) (found : s.mail.lookup c.ticket = some p) :
    Move setup s {.calling c} (s.unmail c.ticket) {.parcel, .ending c session p.carried}
  | bereave {c : Call} {session : UInt64} {deadline : Option (Nat × Duration)}
      (phase : c.phase = .waiting session deadline) (missing : s.mail.lookup c.ticket = none)
      (gone : s.table.holds c.ticket = false) :
    Move setup s {.calling c} s {.ending c session (.error (.notAnswered c.message.route))}
  | expire {c : Call} {session : UInt64} {deadline : Option (Nat × Duration)} {now : Nat} {limit : Duration}
      (phase : c.phase = .waiting session deadline) (held : s.table.holds c.ticket = true)
      (late : passed now deadline = some limit) :
    Move setup s {.calling c}
      ((((s.note (.expired c.ticket now)).note
        (.finished c.ticket (.error (.callTimedOut c.message.route limit)))).strike session).unmail c.ticket) 0
  | finish (c : Call) (session : UInt64) (result : Except Fault Bytes) :
    Move setup s {.ending c session result}
      (((s.note (.finished c.ticket result)).strike session).unmail c.ticket) 0
  | cancelEarly {c : Call} (phase : c.phase = .created) :
    Move setup s {.calling c} (s.note (.cancelled c.ticket)) 0
  | cancel {c : Call} {session : UInt64} {deadline : Option (Nat × Duration)}
      (phase : c.phase = .waiting session deadline) :
    Move setup s {.calling c} (((s.note (.cancelled c.ticket)).strike session).unmail c.ticket) 0
  -- Waits begin and end.
  | beginWait {w : Wait} (now : Nat) (fresh : w.deadline = none) :
    Move setup s {.watching w} (s.note (.began w.pending.ticket now))
      {.watching { w with deadline := some (now + w.limit.nanoseconds) }}
  | collectWait {w : Wait} {p : Parcel} (found : s.mail.lookup w.pending.ticket = some p) :
    Move setup s {.watching w} ((s.unmail w.pending.ticket).note (.delivered w.pending p.toPacket))
      {.parcel, .parcel}
  | bereaveWait {w : Wait} (missing : s.mail.lookup w.pending.ticket = none)
      (gone : s.table.holds w.pending.ticket = false) :
    Move setup s {.parcel, .watching w}
      (s.note (.delivered w.pending (w.pending.request.toPacket.faultReply .closedWaiting)))
      {.parcel, .parcel}
  | expireWait {w : Wait} {now deadline : Nat} (held : s.table.holds w.pending.ticket = true)
      (begun : w.deadline = some deadline) (late : deadline ≤ now) :
    Move setup s {.parcel, .watching w}
      (((s.note (.expired w.pending.ticket now)).strike w.pending.request.session).note
        (.delivered w.pending (w.pending.request.toPacket.faultReply (.waitTimedOut w.limit))))
      {.parcel, .parcel}
  -- Asynchronous calls come back to their callers.
  | refuse (ticket : Nat) (m : Outbound) (callbacks : List Program) (fault : Fault) :
    Move setup s {.asked ticket m callbacks} s {.answering ticket (.error fault)}
  | accept (m : Outbound) (pending : Pending) :
    Move setup s {.placed m pending} s {.answering pending.ticket (.ok ())}
  | failLate {m : Outbound} {pending : Pending} (fault : Fault)
      (missing : s.table.find pending.request.session = none) :
    Move setup s {.placed m pending} (s.note (.unsent pending.ticket fault))
      {.answering pending.ticket (.ok ())}
  | fail {m : Outbound} {pending : Pending} {entry : Session} (fault : Fault)
      (found : s.table.find pending.request.session = some entry) :
    Move setup s {.placed m pending}
      ((s.note (.unsent pending.ticket fault)).strike pending.request.session)
      (orphans entry + {.answering pending.ticket (.error fault)})
  | watch {m : Outbound} {pending : Pending} {limit : Duration} (timed : m.timeout = some limit)
      (taken : setup.spawner ≠ .drop) :
    Move setup s {.promised m pending} { s with waits := s.waits ++ [{ pending, limit }] }
      {.answering pending.ticket (.ok ())}
  | forsake {m : Outbound} {pending : Pending} (dropped : setup.spawner = .drop) :
    Move setup s {.promised m pending} (s.deafen pending.ticket) {.answering pending.ticket (.ok ())}
  | failWait (m : Outbound) (pending : Pending) (fault : Fault) :
    Move setup s {.promised m pending}
      (((s.note (.unsent pending.ticket fault)).strike pending.request.session).unmail pending.ticket)
      {.parcel, .answering pending.ticket (.error fault)}
  | answer (ticket : Nat) (result : Except Fault Unit) :
    Move setup s {.answering ticket result} (s.note (.returned ticket result)) 0

/-- Any number of moves, from one state and what is in hand to another. -/
inductive Moves (setup : Setup) (s : Engine) (H : Hands) : Engine → Hands → Prop where
  | refl : Moves setup s H s H
  | tail {t u : Engine} {taken given : Hands} (F : Hands) (before : Moves setup s H t (taken + F))
      (last : Move setup t taken u given) : Moves setup s H u (given + F)

variable {setup : Setup} {s t u : Engine} {H K L : Hands}

theorem Moves.trans (first : Moves setup s H t K) (second : Moves setup t K u L) : Moves setup s H u L := by
  induction second with
  | refl => exact first
  | tail F _ last ih => exact .tail F ih last

theorem Move.moves {taken given : Hands} (m : Move setup s taken t given) (F : Hands) :
    Moves setup s (taken + F) t (given + F) := .tail F .refl m

end Engine
end Switchboard
