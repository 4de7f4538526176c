import Switchboard.Metadata.Basic
import Switchboard.Route

/-! The unit of communication: what it is for, its routing key, its payload and its metadata. -/

namespace Switchboard

/-- A packet. The text key and the numeric key are independent; a frame carries one of them, and a
    numeric key other than 0 takes precedence. -/
structure Packet where
  command : Command := .notify
  flags : UInt8 := 0
  reserved : UInt8 := 0
  session : UInt64 := 0
  uri : String := ""
  id : UInt32 := 0
  payload : Bytes := []
  metadata : Metadata := .empty
  deriving DecidableEq, BEq, ReflBEq, LawfulBEq, Inhabited

namespace Packet

def blank : Packet := {}

/-- The payload is a fault and not an application value: the lowest flag. -/
def isFault (p : Packet) : Bool := p.flags &&& 1 != 0

/-- Marks the payload as a fault or as a value; the other flags stay. -/
def markFault (p : Packet) (on : Bool) : Packet :=
  { p with flags := if on then p.flags ||| 1 else p.flags &&& 0xFE }

/-- The reserved bit `n`; there are eight. -/
def reservedBit (p : Packet) (n : UInt8) : Bool := n < 8 && p.reserved &&& (1 <<< n) != 0

/-- Sets or clears the reserved bit `n`; from the eighth on nothing happens. -/
def setReservedBit (p : Packet) (n : UInt8) (on : Bool) : Packet :=
  if n < 8 then
    { p with reserved := if on then p.reserved ||| (1 <<< n) else p.reserved &&& ~~~(1 <<< n) }
  else p

/-- The key that routes the packet. -/
def route (p : Packet) : Route := if p.id != 0 then .id p.id else .uri p.uri

/-- Gives the packet one routing key and clears the other. -/
def setRoute (p : Packet) : Route → Packet
  | .uri path => { p with uri := path, id := 0 }
  | .id number => { p with uri := "", id := number }

/-- Makes `p` a packet to a route under a session of its own. -/
def address (p : Packet) (command : Command) (route : Route) (session : UInt64) (metadata : Metadata) :
    Packet :=
  { p.setRoute route with command, session, metadata }

/-- Makes `p` the packet that answers a request: its session, keys and reserved octet under a
    response's command, without flags. -/
def answer (p request : Packet) (metadata : Metadata) : Packet :=
  { p with command := .response, flags := 0, reserved := request.reserved, session := request.session
           uri := request.uri, id := request.id, metadata }

end Packet
end Switchboard
