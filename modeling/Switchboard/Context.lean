import Switchboard.Packet.Content
import Switchboard.Packet.Pool

/-! The state of one packet on its way along a chain of handlers, and the pool of such states. Handlers
    run one after another from a cursor; one that asks for the next ones early runs them inside itself.
    When the outermost such run ends, the packet is given back. -/

namespace Switchboard

/-- What a transport attaches to a connection. -/
inductive Peer where
  | name (s : String)
  | number (n : UInt32)
  deriving DecidableEq

/-- The state of one packet on its way. -/
structure Context where
  cursor : Nat := 0
  aborted : Bool := false
  /-- How many runs of handlers lie within one another. -/
  depth : Nat := 0
  parcel : Parcel := {}
  /-- The connection that the packet came from can be reached. -/
  bound : Bool := false
  /-- The packet counts towards the load of its connection. -/
  counted : Bool := false
  peer : Option Peer := none
  released : Bool := true
  deriving Inhabited

namespace Context

/-- Gives the context a packet of a connection; the peer stays as it is. -/
def bind (c : Context) (parcel : Parcel) (counted : Bool) : Context :=
  { c with cursor := 0, aborted := false, depth := 0, parcel, bound := true, counted
           released := false }

def setPeer (c : Context) (peer : Option Peer) : Context := { c with peer }

/-- Skips the handlers that have not run. -/
def abort (c : Context) : Context := { c with aborted := true }

def edit (c : Context) (f : Packet → Packet) : Context := { c with parcel := c.parcel.edit f }

/-- The packet may be responded to: it is a request, and its connection can be reached. -/
def mayRespond (c : Context) : Except Fault Unit :=
  if c.parcel.command ≠ .request then .error (.cannotRespond c.parcel.command)
  else if !c.bound then .error .contextUnbound
  else .ok ()

/-- The octets of the value in the packet, or the fault that is there instead. -/
def carried (c : Context) : Except Fault Bytes :=
  if c.bound then c.parcel.carried else .error .contextUnbound

/-- The handler at a position is the one to run next. -/
def isDue (c : Context) (position : Nat) : Bool := !c.aborted && c.cursor == position

def start (c : Context) : Context := { c with cursor := c.cursor + 1 }

def enter (c : Context) : Context := { c with depth := c.depth + 1 }

def leave (c : Context) : Context := { c with depth := c.depth - 1 }

/-- The packet is given back and no longer counted. -/
def release (c : Context) : Context :=
  { c with parcel := {}, counted := false, released := true }

/-- A context as the pool keeps it: unbound, with the packet that it was left with. -/
def reset (c : Context) : Context :=
  { c with cursor := 0, aborted := false, depth := 0, bound := false, counted := false, peer := none
           released := true }

end Context

/-- A pool of contexts for reuse, last in first out. It counts what leaves it and what is put into it. -/
structure ContextPool where
  idle : List Context := []
  capacity : Nat := 256
  gets : Nat := 0
  puts : Nat := 0
  deriving Inhabited

namespace ContextPool

def get (pool : ContextPool) : Context × ContextPool :=
  match pool.idle with
  | [] => ({}, { pool with gets := pool.gets + 1 })
  | c :: rest => (c, { pool with idle := rest, gets := pool.gets + 1 })

/-- Puts a context in. It is kept, reset, unless the pool is full. -/
def put (pool : ContextPool) (c : Context) : ContextPool :=
  let pool := { pool with puts := pool.puts + 1 }
  if pool.idle.length < pool.capacity then { pool with idle := c.reset :: pool.idle } else pool

variable (pool : ContextPool) (c : Context)

@[simp] theorem gets_get : pool.get.2.gets = pool.gets + 1 := by
  unfold get
  split <;> rfl

@[simp] theorem puts_get : pool.get.2.puts = pool.puts := by
  unfold get
  split <;> rfl

@[simp] theorem gets_put : (pool.put c).gets = pool.gets := by
  unfold put
  dsimp only
  split <;> rfl

@[simp] theorem puts_put : (pool.put c).puts = pool.puts + 1 := by
  unfold put
  dsimp only
  split <;> rfl

end ContextPool
end Switchboard
