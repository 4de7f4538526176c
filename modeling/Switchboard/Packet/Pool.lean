import Switchboard.Packet.Basic

/-! Packets with scratch space, and the pool they come from and go back to. The pool counts every
    packet that leaves it and every one that is put into it; what it keeps for reuse is blank. -/

namespace Switchboard

/-- Space to encode into: what is in it and how much fits without more memory. -/
structure Scratch where
  octets : Bytes := []
  capacity : Nat := 0
  deriving DecidableEq, Inhabited

namespace Scratch

/-- Empties the space and makes room for `size` octets: growth at least doubles the capacity. -/
def reserve (s : Scratch) (size : Nat) : Scratch :=
  { octets := []
    capacity := if size ≤ s.capacity then s.capacity else max (max (2 * s.capacity) size) 8 }

variable (s : Scratch) (size : Nat)

theorem le_capacity_reserve : size ≤ (s.reserve size).capacity := by
  simp only [reserve]
  split <;> omega

theorem capacity_le_reserve : s.capacity ≤ (s.reserve size).capacity := by
  simp only [reserve]
  split <;> omega

/-- Growth does no more than double what was asked for. -/
theorem capacity_reserve_le : (s.reserve size).capacity ≤ max s.capacity (max (2 * size) 8) := by
  simp only [reserve]
  split <;> omega

end Scratch

/-- A packet with its own scratch space. -/
structure Parcel extends Packet where
  scratch : Scratch := {}
  deriving DecidableEq, Inhabited

namespace Parcel

def edit (p : Parcel) (f : Packet → Packet) : Parcel := { toPacket := f p.toPacket, scratch := p.scratch }

/-- Clears the packet and empties the scratch space, whose capacity stays. -/
def reset (p : Parcel) : Parcel := { toPacket := .blank, scratch := { p.scratch with octets := [] } }

/-- Takes the scratch space away; the parcel is left with none. -/
def takeScratch (p : Parcel) : Parcel := { p with scratch := {} }

end Parcel

/-- A pool of packets for reuse, last in first out. -/
structure PacketPool where
  idle : List Parcel := []
  capacity : Nat := 1024
  gets : Nat := 0
  puts : Nat := 0
  deriving Inhabited

namespace PacketPool

/-- A parcel with more scratch capacity than this is not kept. -/
def retainedCapacity : Nat := 65536

/-- The parcels that left the pool and did not come back. -/
def outstanding (pool : PacketPool) : Nat := pool.gets - pool.puts

def get (pool : PacketPool) : Parcel × PacketPool :=
  match pool.idle with
  | [] => ({}, { pool with gets := pool.gets + 1 })
  | p :: rest => (p, { pool with idle := rest, gets := pool.gets + 1 })

/-- Puts a parcel in. It is kept, blank, unless it holds too much memory or the pool is full. -/
def put (pool : PacketPool) (p : Parcel) : PacketPool :=
  let pool := { pool with puts := pool.puts + 1 }
  if retainedCapacity < p.scratch.capacity then pool
  else if pool.idle.length < pool.capacity then { pool with idle := p.reset :: pool.idle }
  else pool

variable (pool : PacketPool) (p : Parcel)

@[simp] theorem gets_get : pool.get.2.gets = pool.gets + 1 := by
  unfold get
  split <;> rfl

@[simp] theorem puts_get : pool.get.2.puts = pool.puts := by
  unfold get
  split <;> rfl

@[simp] theorem gets_put : (pool.put p).gets = pool.gets := by
  unfold put
  dsimp only
  split
  · rfl
  · split <;> rfl

@[simp] theorem puts_put : (pool.put p).puts = pool.puts + 1 := by
  unfold put
  dsimp only
  split
  · rfl
  · split <;> rfl

/-- A parcel is kept if it does not hold too much memory and there is room for it. -/
def Admits : Prop := p.scratch.capacity ≤ retainedCapacity ∧ pool.idle.length < pool.capacity

instance : Decidable (pool.Admits p) := inferInstanceAs (Decidable (_ ∧ _))

variable {pool p}

theorem get_of_nil (idle : pool.idle = []) : pool.get = ({}, { pool with gets := pool.gets + 1 }) := by
  simp [get, idle]

theorem get_of_cons {rest : List Parcel} (idle : pool.idle = p :: rest) :
    pool.get = (p, { pool with idle := rest, gets := pool.gets + 1 }) := by
  simp [get, idle]

theorem put_of_admits (admits : pool.Admits p) :
    pool.put p = { pool with idle := p.reset :: pool.idle, puts := pool.puts + 1 } := by
  obtain ⟨small, room⟩ := admits
  simp [put, room, Nat.not_lt.mpr small]

theorem put_of_not_admits (refused : ¬pool.Admits p) : pool.put p = { pool with puts := pool.puts + 1 } := by
  by_cases large : retainedCapacity < p.scratch.capacity
  · simp [put, large]
  · have full : ¬pool.idle.length < pool.capacity := fun room => refused ⟨Nat.not_lt.mp large, room⟩
    simp [put, full]

@[simp] theorem capacity_get : pool.get.2.capacity = pool.capacity := by
  unfold get
  split <;> rfl

@[simp] theorem capacity_put : (pool.put p).capacity = pool.capacity := by
  by_cases admits : pool.Admits p
  · rw [put_of_admits admits]
  · rw [put_of_not_admits admits]

end PacketPool
end Switchboard
