import Switchboard.Engine.Inbound

/-! Calls that wait: a caller polls its call until the reply, the closing of the connection or the end of
    its patience decides it, whichever is found first in this order. The same goes for a wait on behalf
    of callbacks. -/

namespace Switchboard
namespace Engine

variable (setup : Setup) (inner : Inner)

/-- Begins a call; nothing is sent before it is polled. -/
def startCall (m : Outbound) : EngineM Nat := do
  let ticket ← openTicket
  record (.called ticket m)
  modify fun s => { s with calls := s.calls ++ [{ ticket, message := m }] }
  pure ticket

/-- Takes the call with a ticket in hand, if it is still in progress. -/
def takeCall (ticket : Nat) : EngineM (Option Call) :=
  modifyGet fun s =>
    (s.calls.find? fun c => c.ticket == ticket,
      { s with calls := s.calls.filter fun c => c.ticket != ticket })

def keepCall (c : Call) : EngineM Unit := modify fun s => { s with calls := s.calls ++ [c] }

def finish (ticket : Nat) (result : Except Fault Bytes) : EngineM (Option (Except Fault Bytes)) := do
  record (.finished ticket result)
  pure (some result)

/-- Ends a registered call with a result: its session goes, and so does a reply not collected. -/
def finishSession (ticket : Nat) (session : UInt64) (result : Except Fault Bytes) :
    EngineM (Option (Except Fault Bytes)) := do
  let result ← finish ticket result
  let _ ← discard session
  let _ ← takeMail ticket
  pure result

def passed (now : Nat) (deadline : Option (Nat × Duration)) : Option Duration :=
  match deadline with
  | some (time, limit) => if time ≤ now then some limit else none
  | none => none

def awaitReply (now : Nat) (c : Call) (session : UInt64) (deadline : Option (Nat × Duration)) :
    EngineM (Option (Except Fault Bytes)) := do
  match ← takeMail c.ticket with
  | some p =>
    putParcel p
    finishSession c.ticket session p.carried
  | none =>
    if !(← get).table.holds c.ticket then
      finishSession c.ticket session (.error (.notAnswered c.message.route))
    else
      match passed now deadline with
      | some limit =>
        record (.expired c.ticket now)
        finishSession c.ticket session (.error (.callTimedOut c.message.route limit))
      | none =>
        keepCall { c with phase := .waiting session deadline }
        pure none

def sendCall (now : Nat) (c : Call) : EngineM (Option (Except Fault Bytes)) := do
  let p ← issue .request c.message
  match p.load (c.message.body.map .value) with
  | (p, .error fault) =>
    putParcel p
    finish c.ticket (.error fault)
  | (p, .ok ()) =>
    let session := p.session
    match ← register (.waiting c.ticket true) p.toPacket with
    | .refused =>
      putParcel p
      finish c.ticket (.error (.notSent c.message.route))
    | .accepted =>
      let (p, result) ← send setup inner p
      putParcel p
      match result with
      | .error fault =>
        record (.unsent c.ticket fault)
        finishSession c.ticket session (.error fault)
      | .ok () =>
        record (.began c.ticket now)
        awaitReply now c session
          (c.message.timeout.map fun limit => (now + limit.nanoseconds, limit))

/-- Polls a call; its result, once it is decided. -/
def pollCall (now ticket : Nat) : EngineM (Option (Except Fault Bytes)) := do
  match ← takeCall ticket with
  | none => pure none
  | some c =>
    match c.phase with
    | .created => sendCall setup inner now c
    | .waiting session deadline => awaitReply now c session deadline

/-- Gives up a call: its session goes, and a reply that was handed to it is lost. -/
def cancelCall (ticket : Nat) : EngineM Unit := do
  match ← takeCall ticket with
  | none => pure ()
  | some c =>
    record (.cancelled ticket)
    match c.phase with
    | .created => pure ()
    | .waiting session _ =>
      let _ ← discard session
      let _ ← takeMail ticket

/-- Takes the wait with a ticket in hand, if it is still in progress. -/
def takeWait (ticket : Nat) : EngineM (Option Wait) :=
  modifyGet fun s =>
    (s.waits.find? fun w => w.pending.ticket == ticket,
      { s with waits := s.waits.filter fun w => w.pending.ticket != ticket })

def keepWait (w : Wait) : EngineM Unit := modify fun s => { s with waits := s.waits ++ [w] }

/-- The time at which a wait ends; it begins with the first poll. -/
def beginWait (now : Nat) (w : Wait) : EngineM Nat :=
  match w.deadline with
  | some deadline => pure deadline
  | none => do
    record (.began w.pending.ticket now)
    pure (now + w.limit.nanoseconds)

def pollWait (now ticket : Nat) : EngineM Unit := do
  match ← takeWait ticket with
  | none => pure ()
  | some w =>
    let deadline ← beginWait now w
    match ← takeMail ticket with
    | some p => deliver setup inner w.pending p
    | none =>
      if !(← get).table.holds ticket then
        let p ← synthesize w.pending.request.toPacket .closedWaiting
        deliver setup inner w.pending p
      else if deadline ≤ now then
        record (.expired ticket now)
        let _ ← discard w.pending.request.session
        let p ← synthesize w.pending.request.toPacket (.waitTimedOut w.limit)
        deliver setup inner w.pending p
      else keepWait { w with deadline := some deadline }

/-! ### All that can be done with a connection -/

/-- How deep work on a connection may lie within work on it. -/
def depthLimit : Nat := 1000

/-- One thing done with a connection from outside. -/
inductive Act where
  | receive (data : Bytes)
  | notify (m : Outbound)
  | callAsync (m : Outbound) (callbacks : List Program)
  | startCall (m : Outbound)
  | pollCall (now ticket : Nat)
  | cancelCall (ticket : Nat)
  | pollWait (now ticket : Nat)
  | nextSession
  | close

inductive Outcome where
  | none
  | done (result : Except Fault Unit)
  | ticket (n : Nat)
  | session (n : UInt64)
  | polled (result : Option (Except Fault Bytes))

def act (depth : Nat) : Act → EngineM Outcome
  | .receive data => .done <$> receiveWith setup (nested setup depth) data
  | .notify m => .done <$> notify setup (nested setup depth) m
  | .callAsync m callbacks => .done <$> callAsync setup (nested setup depth) m callbacks
  | .startCall m => .ticket <$> startCall m
  | .pollCall now ticket => .polled <$> pollCall setup (nested setup depth) now ticket
  | .cancelCall ticket => do
    cancelCall ticket
    pure .none
  | .pollWait now ticket => do
    pollWait setup (nested setup depth) now ticket
    pure .none
  | .nextSession =>
    modifyGet fun s =>
      let (n, issuer) := s.issuer.nextSession
      (.session n, { s with issuer })
  | .close => do
    closeWith setup (nested setup depth)
    pure .none

end Engine
end Switchboard
