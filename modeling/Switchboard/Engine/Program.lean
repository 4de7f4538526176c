import Switchboard.Context
import Switchboard.Json.Shape

/-! What a handler does with the packet it is given. A program is a tree: each node is one thing done to
    the context or the connection, and what follows may depend on what was seen. Programs report events
    for an observer; what they report has no effect. -/

namespace Switchboard

structure PoolCounts where
  gets : Nat
  puts : Nat
  packets : Nat
  contexts : Nat
  deriving DecidableEq

/-- What is reported of an event. -/
inductive Sight where
  | json (j : Json)
  | flag (b : Bool)
  | text (s : String)
  | packet (p : Packet)
  | decoded (r : Except Fault Json)
  | outcome (r : Except Fault Unit)
  | peer (p : Option Peer)
  | load (n : Int)
  | counts (c : PoolCounts)
  | measured (label : Json) (length : Nat)

/-- Where a report comes from: the session it is about, who reports, and what happened. -/
structure Source where
  session : Option UInt64
  who : String
  what : String

/-- A report: where it comes from, and what was seen. -/
structure Event extends Source where
  sight : Sight

/-- A message to send: its route, its payload if it could be encoded, and the options of the call. -/
structure Outbound where
  route : Route
  body : Except Fault Bytes
  timeout : Option Duration := none
  metadata : Metadata := .empty
  reserved : UInt8 := 0

structure View where
  packet : Packet
  aborted : Bool
  peer : Option Peer
  load : Int

/-- What a handler does. -/
inductive Program where
  | done
  /-- Runs the handlers after this one now. -/
  | next (rest : Program)
  /-- Skips the handlers that have not run. -/
  | abort (rest : Program)
  | edit (change : Packet → Packet) (rest : Program)
  /-- Takes another peer for the context, or none; the connection keeps its own. -/
  | setPeer (peer : Option Peer) (rest : Program)
  | look (rest : View → Program)
  | respond (content : Except Fault Content) (metadata : Metadata) (rest : Except Fault Unit → Program)
  | receive (frame : Bytes) (rest : Except Fault Unit → Program)
  | close (rest : Program)
  | notify (message : Outbound) (rest : Except Fault Unit → Program)
  | callAsync (message : Outbound) (callbacks : List Program) (rest : Except Fault Unit → Program)
  | report (event : Event) (rest : Program)
  /-- Reports what the pools count now. -/
  | reportCounts (source : Source) (rest : Program)

instance : Inhabited Program := ⟨.done⟩

end Switchboard
