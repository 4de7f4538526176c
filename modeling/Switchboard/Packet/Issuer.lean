import Switchboard.Frame.Framing
import Switchboard.Packet.Content

/-! Where the packets of one connection come from: a pool, and the numbering of sessions from 1. -/

namespace Switchboard

/-- A pool of packets and how many session numbers were drawn. The numbers come round again after
    `2 ^ 64` of them. -/
structure Issuer where
  pool : PacketPool := {}
  drawn : Nat := 0
  deriving Inhabited

namespace Issuer

def nextSession (s : Issuer) : UInt64 × Issuer :=
  (UInt64.ofNat (s.drawn + 1), { s with drawn := s.drawn + 1 })

def get (s : Issuer) : Parcel × Issuer :=
  let (p, pool) := s.pool.get
  (p, { s with pool })

def put (s : Issuer) (p : Parcel) : Issuer := { s with pool := s.pool.put p }

/-- Takes out a packet to a route under a session of its own. -/
def issue (s : Issuer) (command : Command) (route : Route) (metadata : Metadata) : Parcel × Issuer :=
  let (p, s) := s.get
  let (session, s) := s.nextSession
  (p.edit (·.address command route session metadata), s)

def answer (s : Issuer) (request : Packet) (metadata : Metadata) : Parcel × Issuer :=
  let (p, s) := s.get
  (p.edit (·.answer request metadata), s)

variable (s : Issuer) (p : Parcel)

@[simp] theorem gets_get : s.get.2.pool.gets = s.pool.gets + 1 := s.pool.gets_get

@[simp] theorem puts_get : s.get.2.pool.puts = s.pool.puts := s.pool.puts_get

@[simp] theorem gets_put : (s.put p).pool.gets = s.pool.gets := s.pool.gets_put p

@[simp] theorem puts_put : (s.put p).pool.puts = s.pool.puts + 1 := s.pool.puts_put p

end Issuer

namespace Parcel

/-- Puts content that could be encoded into the payload; otherwise the packet stays as it is. -/
def load (p : Parcel) (content : Except Fault Content) : Parcel × Except Fault Unit :=
  let (q, result) := p.toPacket.load content
  ({ toPacket := q, scratch := p.scratch }, result)

end Parcel
end Switchboard
