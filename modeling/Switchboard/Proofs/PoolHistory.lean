import Mathlib.Data.List.Induction
import Switchboard.Proofs.FrameHistory

/-! What a pool keeps, by the history of what was taken out of it and put into it. Whatever was done to a packet, and
    wherever it came from, a pool keeps it blank or not at all; so what is taken out is as good as new. Whether it is
    kept depends on the frames that were begun in its space, which may have failed later: space that grew stays large
    until it is taken away. -/

namespace Switchboard

open Layout (Demand)

/-! ### The space of a packet -/

/-- The framing under which something done to a packet begins a frame, if its sizes allow it. -/
def Handling.framing? : Handling → Option Framing
  | .frame f | .send f _ => some f
  | _ => none

/-- Something done to a packet begins a frame of some length: the text key fits and so does the whole, even if the
    metadata then does not. -/
def Handling.Begins (handling : Handling) (p : Packet) (n : Nat) : Prop :=
  ∃ f, handling.framing? = some f ∧ Demand.key.Met f.layout f.limit p ∧ Demand.size.Met f.layout f.limit p ∧
    n = f.layout.frameLength p

namespace Parcel

/-- A history of a packet begins a frame of some length. -/
def Began (p : Parcel) (history : List Handling) (n : Nat) : Prop :=
  ∃ before handling later, history = before ++ handling :: later ∧ handling.Begins (p.through before).toPacket n

/-- A history of a packet begins a frame of some length in space that is not taken away since. -/
def Spanned (p : Parcel) (history : List Handling) (n : Nat) : Prop :=
  ∃ before handling later, history = before ++ handling :: later ∧ handling.Begins (p.through before).toPacket n ∧
    .takeScratch ∉ later

variable {p : Parcel} {f : Framing} {handling : Handling} {history before : List Handling} {n m : Nat}

theorem capacity_frame_of_met (key : Demand.key.Met f.layout f.limit p.toPacket)
    (size : Demand.size.Met f.layout f.limit p.toPacket) :
    (p.frame f).1.scratch.capacity = (p.scratch.reserve (f.layout.frameLength p.toPacket)).capacity := by
  simp only [frame, Layout.measure_of_met key size]
  split <;> rfl

/-- A frame that cannot be begun leaves everything as it is. -/
theorem frame_of_not_met (refused : ¬(Demand.key.Met f.layout f.limit p.toPacket ∧
    Demand.size.Met f.layout f.limit p.toPacket)) : (p.frame f).1 = p := by
  by_cases key : Demand.key.Met f.layout f.limit p.toPacket
  · simp [frame, Layout.measure_of_large key fun size => refused ⟨key, size⟩]
  · simp [frame, Layout.measure_of_long_key key]

theorem undergo_of_framing (own : handling.framing? = some f) : p.undergo handling = (p.frame f).1 := by
  cases handling with
  | frame g =>
    cases own
    rfl
  | send g output =>
    cases own
    rw [undergo, send_eq]
  | edit | unframe | reset | takeScratch => cases own

theorem capacity_of_begins (begins : handling.Begins p.toPacket n) :
    (p.undergo handling).scratch.capacity = (p.scratch.reserve n).capacity := by
  obtain ⟨f, own, key, size, rfl⟩ := begins
  rw [undergo_of_framing own, capacity_frame_of_met key size]

/-- Without a frame that is begun, the space stays as large as it is unless it is taken away. -/
theorem capacity_of_not_begins (none : ∀ n, ¬handling.Begins p.toPacket n) (stays : handling ≠ .takeScratch) :
    (p.undergo handling).scratch.capacity = p.scratch.capacity := by
  cases own : handling.framing? with
  | some f =>
    rw [undergo_of_framing own, frame_of_not_met fun met => none _ ⟨f, own, met.1, met.2, rfl⟩]
  | none =>
    cases handling with
    | frame | send => cases own
    | edit | reset => rfl
    | unframe f bs =>
      rw [undergo, unframe]
      split <;> rfl
    | takeScratch => exact absurd rfl stays

/-- Space is never made smaller, only taken away. -/
theorem capacity_le_undergo (stays : handling ≠ .takeScratch) :
    p.scratch.capacity ≤ (p.undergo handling).scratch.capacity := by
  by_cases begun : ∃ n, handling.Begins p.toPacket n
  · obtain ⟨n, begins⟩ := begun
    exact capacity_of_begins begins ▸ p.scratch.capacity_le_reserve n
  · exact (capacity_of_not_begins (not_exists.mp begun) stays).ge

/-- Space that grows for a frame grows to no more than twice its length. -/
theorem capacity_undergo_le (short : ∀ n, handling.Begins p.toPacket n → n ≤ m) :
    (p.undergo handling).scratch.capacity ≤ max p.scratch.capacity (max (2 * m) 8) := by
  by_cases begun : ∃ n, handling.Begins p.toPacket n
  · obtain ⟨n, begins⟩ := begun
    have grown := capacity_of_begins begins
    have growth := p.scratch.capacity_reserve_le n
    have fits := short n begins
    omega
  · by_cases stays : handling = .takeScratch
    · subst stays
      exact Nat.zero_le _
    · have same := capacity_of_not_begins (not_exists.mp begun) stays
      omega

theorem through_concat : p.through (history ++ [handling]) = (p.through history).undergo handling :=
  List.foldl_concat ..

theorem Began.append (began : p.Began before n) (later : List Handling) : p.Began (before ++ later) n := by
  obtain ⟨first, handling, rest, rfl, begins⟩ := began
  exact ⟨first, handling, rest ++ later, by simp, begins⟩

/-- The space is no larger than it was, or than twice the longest frame that was begun in it. -/
theorem capacity_through_le (short : ∀ n, p.Began history n → n ≤ m) :
    (p.through history).scratch.capacity ≤ max p.scratch.capacity (max (2 * m) 8) := by
  induction history using List.reverseRecOn with
  | nil => exact Nat.le_max_left ..
  | append_singleton before handling ih =>
    have earlier := ih fun n began => short n (began.append [handling])
    have last : ∀ n, handling.Begins (p.through before).toPacket n → n ≤ m := fun n begins =>
      short n ⟨before, handling, [], rfl, begins⟩
    have growth := capacity_undergo_le last
    rw [through_concat]
    omega

/-- Two frames of hardly more than half the length of what a pool keeps can take too much space for it. -/
example : ((({} : Scratch).reserve 32769).reserve 32770).capacity = 65538 := by decide

/-- A frame that was begun has its place until the space is taken away. -/
theorem Spanned.le_capacity (spanned : p.Spanned history n) : n ≤ (p.through history).scratch.capacity := by
  obtain ⟨before, handling, later, rfl, begins, stays⟩ := spanned
  -- From the frame on, through all that was done later.
  induction later using List.reverseRecOn with
  | nil =>
    rw [through_concat, capacity_of_begins begins]
    exact Scratch.le_capacity_reserve ..
  | append_singleton later last ih =>
    obtain ⟨stays, other⟩ := not_or.mp fun mem => stays (List.mem_append.mpr mem)
    rw [← List.cons_append, ← List.append_assoc, through_concat]
    calc n ≤ (p.through (before ++ handling :: later)).scratch.capacity := ih stays
      _ ≤ ((p.through (before ++ handling :: later)).undergo last).scratch.capacity :=
        capacity_le_undergo fun same => other (List.mem_singleton.mpr same.symm)

end Parcel

/-! ### A pool, step by step -/

/-- A parcel as a pool keeps it: nothing is left of its fields and of what was written, and its space is not too large. -/
structure Parcel.Spare (p : Parcel) : Prop where
  blank : p.toPacket = .blank
  empty : p.scratch.octets = []
  small : p.scratch.capacity ≤ PacketPool.retainedCapacity

theorem Parcel.spare_new : ({} : Parcel).Spare := ⟨rfl, rfl, Nat.zero_le _⟩

namespace PacketPool

/-- A pool keeps no more parcels than it may, and only such as are spare. -/
structure Kempt (pool : PacketPool) : Prop where
  spare : ∀ p ∈ pool.idle, p.Spare
  few : pool.idle.length ≤ pool.capacity

variable {pool : PacketPool}

/-- What is taken out is spare, whether it was kept or is new. -/
theorem Kempt.get (kempt : pool.Kempt) : pool.get.1.Spare ∧ pool.get.2.Kempt := by
  cases idle : pool.idle with
  | nil =>
    rw [get_of_nil idle]
    exact ⟨Parcel.spare_new, kempt.spare, kempt.few⟩
  | cons p rest =>
    obtain ⟨spare, few⟩ := kempt
    rw [idle] at spare few
    obtain ⟨first, others⟩ := List.forall_mem_cons.mp spare
    rw [get_of_cons idle]
    exact ⟨first, others, Nat.le_of_succ_le few⟩

theorem Kempt.put (kempt : pool.Kempt) (p : Parcel) : (pool.put p).Kempt := by
  by_cases admits : pool.Admits p
  · rw [put_of_admits admits]
    exact ⟨List.forall_mem_cons.mpr ⟨⟨rfl, rfl, admits.1⟩, kempt.spare⟩, admits.2⟩
  · rw [put_of_not_admits admits]
    exact ⟨kempt.spare, kempt.few⟩

end PacketPool

/-! ### All of a history -/

/-- A pool, and the parcels that are in use beside it. -/
structure Desk where
  pool : PacketPool
  parcels : List Parcel := []

/-- One thing done at a desk. A parcel that lies there is meant by its place. -/
inductive Chore where
  /-- A parcel is taken out of the pool. -/
  | get
  /-- A parcel comes that is not from the pool, whatever was done to it elsewhere. -/
  | bring (p : Parcel)
  | handle (i : Nat) (handling : Handling)
  /-- A parcel is put into the pool, wherever it came from. -/
  | put (i : Nat)

namespace Chore

@[simp] def isGet : Chore → Bool
  | .get => true
  | _ => false

@[simp] def isPut : Chore → Bool
  | .put _ => true
  | _ => false

@[simp] def isBring : Chore → Bool
  | .bring _ => true
  | _ => false

/-- The place where a parcel must lie. -/
def place? : Chore → Option Nat
  | .get | .bring _ => none
  | .handle i _ | .put i => some i

end Chore

namespace Desk

/-- A desk with a new pool, before anything is done. -/
def opening (capacity : Nat) : Desk := { pool := { capacity } }

/-- The desk once something more is done, if the parcel that is meant is there. -/
def attend (d : Desk) : Chore → Option Desk
  | .get => some { pool := d.pool.get.2, parcels := d.pool.get.1 :: d.parcels }
  | .bring p => some { d with parcels := p :: d.parcels }
  | .handle i handling => d.parcels[i]?.map fun p => { d with parcels := d.parcels.set i (p.undergo handling) }
  | .put i => d.parcels[i]?.map fun p => { pool := d.pool.put p, parcels := d.parcels.eraseIdx i }

/-- The desk after all of a history, in its order. -/
def after (d : Desk) (history : List Chore) : Option Desk := history.foldlM attend d

/-- What a pool of some capacity is after a history: what it keeps, what will come out of it, what will be kept of what
    is put in, and what it counted. -/
structure InOrder (capacity : Nat) (history : List Chore) (d : Desk) : Prop where
  clean : ∀ p ∈ d.pool.idle, p.toPacket = .blank ∧ p.scratch.octets = [] ∧ p.scratch.capacity ≤ 65536
  few : d.pool.idle.length ≤ capacity
  /-- What comes out is the same packet as a new one. -/
  fresh : d.pool.get.1.toPacket = ({} : Parcel).toPacket
  reuse : d.pool.idle ≠ [] → d.pool.idle = d.pool.get.1 :: d.pool.get.2.idle
  make : d.pool.idle = [] → d.pool.get.1 = {} ∧ d.pool.get.2.idle = []
  keep : ∀ p : Parcel, p.scratch.capacity ≤ 65536 ∧ d.pool.idle.length < capacity →
    (d.pool.put p).idle = p.reset :: d.pool.idle
  leave : ∀ p : Parcel, ¬(p.scratch.capacity ≤ 65536 ∧ d.pool.idle.length < capacity) →
    (d.pool.put p).idle = d.pool.idle
  gets : d.pool.gets = history.countP Chore.isGet
  puts : d.pool.puts = history.countP Chore.isPut
  /-- What lies on the desk came out of the pool or from elsewhere, and was not put in. -/
  balance : d.parcels.length + d.pool.puts = d.pool.gets + history.countP Chore.isBring
  /-- What comes out stays small enough as long as no frame in it is longer than half of what is kept. -/
  short : ∀ work : List Handling, (∀ n, d.pool.get.1.Began work n → n ≤ 32768) →
    (d.pool.get.1.through work).scratch.capacity ≤ 65536
  /-- A parcel in which a longer frame was begun than is kept is not kept, whether or not the frame was completed. -/
  long : ∀ (p : Parcel) (work : List Handling) (n : Nat), p.Spanned work n → 65536 < n →
    (d.pool.put (p.through work)).idle = d.pool.idle
  /-- Anything can be done next but what is to be done to a parcel that is not there. -/
  stuck : ∀ chore : Chore, d.attend chore = none ↔ ∃ i, chore.place? = some i ∧ d.parcels.length ≤ i

/-- A pool that is kempt, and that counted what was done. -/
structure Served (capacity : Nat) (history : List Chore) (d : Desk) : Prop where
  kempt : d.pool.Kempt
  capacity : d.pool.capacity = capacity
  gets : d.pool.gets = history.countP Chore.isGet
  puts : d.pool.puts = history.countP Chore.isPut
  balance : d.parcels.length + d.pool.puts = d.pool.gets + history.countP Chore.isBring

variable {d e : Desk} {chore : Chore} {history : List Chore} {capacity : Nat}

theorem attend_eq_none_iff : d.attend chore = none ↔ ∃ i, chore.place? = some i ∧ d.parcels.length ≤ i := by
  cases chore <;> simp [attend, Chore.place?]

theorem served_opening (capacity : Nat) : Served capacity [] (opening capacity) where
  kempt := ⟨List.forall_mem_nil _, Nat.zero_le _⟩
  capacity := rfl
  gets := rfl
  puts := rfl
  balance := rfl

/-- What is done at a desk is counted if it concerns the pool, and keeps the pool kempt. -/
theorem Served.attend (served : Served capacity history d) (done : d.attend chore = some e) :
    Served capacity (history ++ [chore]) e := by
  obtain ⟨kempt, limit, gets, puts, balance⟩ := served
  cases chore with
  | get =>
    cases done
    exact {
      kempt := kempt.get.2
      capacity := by simp [limit]
      gets := by simp [gets]
      puts := by simp [puts]
      balance := by simp; omega }
  | bring p =>
    cases done
    exact {
      kempt
      capacity := limit
      gets := by simp [gets]
      puts := by simp [puts]
      balance := by simp; omega }
  | handle i handling =>
    obtain ⟨p, -, rfl⟩ := Option.map_eq_some_iff.mp done
    exact {
      kempt
      capacity := limit
      gets := by simp [gets]
      puts := by simp [puts]
      balance := by simp [balance] }
  | put i =>
    obtain ⟨p, lies, rfl⟩ := Option.map_eq_some_iff.mp done
    obtain ⟨within, -⟩ := List.getElem?_eq_some_iff.mp lies
    exact {
      kempt := kempt.put p
      capacity := by simp [limit]
      gets := by simp [gets]
      puts := by simp [puts]
      balance := by simp [List.length_eraseIdx_of_lt within]; omega }

theorem after_concat (d : Desk) (history : List Chore) (chore : Chore) :
    d.after (history ++ [chore]) = (d.after history).bind (·.attend chore) := by
  simp [after, List.foldlM_append]

theorem Served.after (done : (opening capacity).after history = some d) : Served capacity history d := by
  induction history using List.reverseRecOn generalizing d with
  | nil =>
    cases done
    exact served_opening capacity
  | append_singleton before chore ih =>
    rw [after_concat] at done
    obtain ⟨middle, earlier, last⟩ := Option.bind_eq_some_iff.mp done
    exact (ih earlier).attend last

/-- After any history of packets that were taken out or brought, filled, framed with success or without, and put in, a
    pool keeps packets without fields and without octets in their space, which is not too large, and no more of them than
    it may. A packet that comes out is one of those as long as there are any, and always like a new one. One that is put
    in is kept just when its space is not too large, which its frames decide, and there is room. Everything that was
    taken out or put in is counted once, kept or not. -/
theorem pools_are_kept_in_order (capacity : Nat) (history : List Chore) (d : Desk)
    (done : (opening capacity).after history = some d) : InOrder capacity history d := by
  obtain ⟨kempt, limit, gets, puts, balance⟩ := Served.after done
  obtain ⟨next, -⟩ := kempt.get
  have admits_iff (p : Parcel) :
      d.pool.Admits p ↔ p.scratch.capacity ≤ 65536 ∧ d.pool.idle.length < capacity := by
    rw [← limit]
    rfl
  exact {
    clean := fun p mem => ⟨(kempt.spare p mem).blank, (kempt.spare p mem).empty, (kempt.spare p mem).small⟩
    few := limit ▸ kempt.few
    fresh := next.blank
    reuse := fun nonempty => by
      obtain ⟨p, rest, idle⟩ := List.exists_cons_of_ne_nil nonempty
      rw [PacketPool.get_of_cons idle, idle]
    make := fun empty => by simp [PacketPool.get_of_nil empty, empty]
    keep := fun p kept => by rw [PacketPool.put_of_admits ((admits_iff p).mpr kept)]
    leave := fun p left => by rw [PacketPool.put_of_not_admits fun admits => left ((admits_iff p).mp admits)]
    gets
    puts
    balance
    short := fun work short => by
      have small : d.pool.get.1.scratch.capacity ≤ 65536 := next.small
      -- Growth can double what was asked for, and twice 32768 is just what is kept.
      have space := Parcel.capacity_through_le short
      omega
    long := fun p work n spanned long => by
      have space := spanned.le_capacity
      have refused : ¬d.pool.Admits (p.through work) := fun admits => by
        have small := ((admits_iff _).mp admits).1
        omega
      rw [PacketPool.put_of_not_admits refused]
    stuck := fun chore => attend_eq_none_iff }

/-- Packets are filled and framed, once in vain, and put in; then there is one from elsewhere with too much space, and
    one too many. -/
def errands : List Chore :=
  [.get, .handle 0 (.edit fun p => { p with command := .request, uri := "ring", payload := [1, 2] }),
    .handle 0 (.frame {}), .get, .handle 0 (.frame { limit := 19 }), .put 1, .get, .put 0,
    .bring { scratch := { capacity := 65537 } }, .put 0, .put 0]

/-- What those leave behind. -/
def leftOver : Desk := ((opening 1).after errands).getD (opening 1)

theorem errands_are_kept_in_order :
    (opening 1).after errands = some leftOver ∧ InOrder 1 errands leftOver ∧
      leftOver.pool.idle.map (·.scratch.capacity) = [26] ∧ leftOver.pool.gets = 3 ∧ leftOver.pool.puts = 4 :=
  ⟨rfl, pools_are_kept_in_order 1 errands leftOver rfl, rfl, rfl, rfl⟩

end Desk
end Switchboard
