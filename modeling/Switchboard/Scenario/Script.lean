import Switchboard.Engine.State

/-! Handlers and filters written as lists of actions. A script reports what it sees and what comes of
    what it does, under the session of the packet it began with. -/

namespace Switchboard

/-- Changes to a packet; what is left out stays. -/
structure PacketChange where
  command : Option Command := none
  flags : Option UInt8 := none
  reserved : Option UInt8 := none
  session : Option UInt64 := none
  uri : Option String := none
  id : Option UInt32 := none
  payload : Option Bytes := none
  metadata : Option Metadata := none

def PacketChange.apply (d : PacketChange) (p : Packet) : Packet :=
  { command := d.command.getD p.command, flags := d.flags.getD p.flags
    reserved := d.reserved.getD p.reserved, session := d.session.getD p.session
    uri := d.uri.getD p.uri, id := d.id.getD p.id, payload := d.payload.getD p.payload
    metadata := d.metadata.getD p.metadata }

inductive Action where
  | log (value : Json)
  | next
  | abort
  | aborted
  | show
  /-- Shows the request that a reply belongs to. -/
  | request
  | set (change : PacketChange)
  | unmarshal (shape : Json.Shape)
  | respond (content : Except Fault Content) (metadata : Metadata)
  | add
  /-- Responds with the value that came, under the same metadata. -/
  | echo
  | peer
  | load
  | stats
  | read (frame : Bytes)
  | clean
  | notify (message : Outbound)
  | callAsync (message : Outbound) (callbacks : List Program)

namespace Script

def contentOf (j : Json) : Content := .value (Text.bytes j.print)

/-- The sum of two numbers within 64 bits, or the fault that stands in their place. -/
def sumOf (p : Packet) : Content :=
  match p.value (Json.codec .addends) with
  | .error fault => .ofFault fault
  | .ok j =>
    match j.field? "a", j.field? "b" with
    | some (.int a), some (.int b) => contentOf (.object [("sum", .int (Int.bmod (a + b) 0x10000000000000000))])
    | _, _ => .ofFault .jsonMalformed

/-- The value of a packet, or the fault that stands in its place. -/
def echoOf (p : Packet) : Content :=
  match p.value (Json.codec .any) with
  | .error fault => .ofFault fault
  | .ok j => contentOf j

/-- The program of some actions; `source` is where the reports of an action come from. -/
def compile (request : Packet) (source : String → Source) : List Action → Program
  | [] => .done
  | .log value :: rest => .report { source "log" with sight := .json value } (compile request source rest)
  | .next :: rest => .next (compile request source rest)
  | .abort :: rest => .abort (compile request source rest)
  | .aborted :: rest => .look fun v =>
    .report { source "aborted" with sight := .flag v.aborted } (compile request source rest)
  | .show :: rest => .look fun v =>
    .report { source "show" with sight := .packet v.packet } (compile request source rest)
  | .request :: rest => .report { source "request" with sight := .packet request } (compile request source rest)
  | .set change :: rest => .edit change.apply (compile request source rest)
  | .unmarshal shape :: rest => .look fun v =>
    .report { source "unmarshal" with sight := .decoded (v.packet.value (Json.codec shape)) }
      (compile request source rest)
  | .respond content metadata :: rest => .respond content metadata fun r =>
    .report { source "respond" with sight := .outcome r } (compile request source rest)
  | .add :: rest => .look fun v => .respond (.ok (sumOf v.packet)) .empty fun r =>
    .report { source "add" with sight := .outcome r } (compile request source rest)
  | .echo :: rest => .look fun v => .respond (.ok (echoOf v.packet)) v.packet.metadata fun r =>
    .report { source "echo" with sight := .outcome r } (compile request source rest)
  | .peer :: rest => .look fun v => .report { source "peer" with sight := .peer v.peer } (compile request source rest)
  | .load :: rest => .look fun v => .report { source "load" with sight := .load v.load } (compile request source rest)
  | .stats :: rest => .reportCounts (source "stats") (compile request source rest)
  | .read frame :: rest => .receive frame fun r =>
    .report { source "read" with sight := .outcome r } (compile request source rest)
  | .clean :: rest => .close (compile request source rest)
  | .notify message :: rest => .notify message fun r =>
    .report { source "notify" with sight := .outcome r } (compile request source rest)
  | .callAsync message callbacks :: rest => .callAsync message callbacks fun r =>
    .report { source "async_call" with sight := .outcome r } (compile request source rest)

/-- The program of a script, under the name of its role. -/
def program (who : String) (actions : List Action) : Program :=
  .look fun v => compile .blank (fun what => { session := some v.packet.session, who, what }) actions

/-- The program of a script around the callbacks of a request. -/
def responseFilter (actions : List Action) (request : Packet) : Program :=
  .look fun v => compile request (fun what => { session := some v.packet.session, who := "filter", what }) actions

/-! ### Filters -/

inductive DataAction where
  | log (label : Json)
  | stop
  | stopIfLonger (length : Nat)
  | fail (fault : Fault)
  | truncate (length : Nat)
  | append (octets : Bytes)
  | xorByte (index : Nat) (mask : UInt8)

/-- Changes an octet, if there is one at the index. -/
def xorAt (index : Nat) (mask : UInt8) (data : Bytes) : Bytes :=
  data.mapIdx fun i b => if i = index then b ^^^ mask else b

def dataFilter : List DataAction → Bytes → Filtered Bytes
  | [], data => { value := data }
  | .log label :: rest, data =>
    let event : Event :=
      { session := none, who := "data", what := "log", sight := .measured label data.length }
    let after := dataFilter rest data
    { after with events := event :: after.events }
  | .stop :: _, data => { value := data, verdict := .ok .stop }
  | .stopIfLonger length :: rest, data =>
    if length < data.length then { value := data, verdict := .ok .stop } else dataFilter rest data
  | .fail fault :: _, data => { value := data, verdict := .error fault }
  | .truncate length :: rest, data => dataFilter rest (data.take length)
  | .append octets :: rest, data => dataFilter rest (data ++ octets)
  | .xorByte index mask :: rest, data => dataFilter rest (xorAt index mask data)

inductive PacketAction where
  | log (label : Json)
  | show
  | set (change : PacketChange)
  | stop
  | stopUri (uri : String)
  | fail (fault : Fault)
  | failUri (uri : String) (fault : Fault)

def packetFilter : List PacketAction → Packet → Filtered Packet
  | [], p => { value := p }
  | .log label :: rest, p => noting "log" (.json label) p (packetFilter rest p)
  | .show :: rest, p => noting "show" (.packet p) p (packetFilter rest p)
  | .set change :: rest, p => packetFilter rest (change.apply p)
  | .stop :: _, p => { value := p, verdict := .ok .stop }
  | .stopUri uri :: rest, p =>
    if p.uri = uri then { value := p, verdict := .ok .stop } else packetFilter rest p
  | .fail fault :: _, p => { value := p, verdict := .error fault }
  | .failUri uri fault :: rest, p =>
    if p.uri = uri then { value := p, verdict := .error fault } else packetFilter rest p
where
  noting (what : String) (sight : Sight) (p : Packet) (after : Filtered Packet) : Filtered Packet :=
    { after with events := { session := some p.session, who := "packet", what, sight } :: after.events }

/-- An interceptor that keeps the packets with a text key and marks all others. -/
def interceptor (uri : String) (p : Packet) : Interception :=
  { events := [{ session := some p.session, who := "intercept", what := "seen", sight := .text p.uri }]
    packet := if p.uri = uri then none else some { p with reserved := p.reserved ^^^ 0x80 } }

end Script
end Switchboard
