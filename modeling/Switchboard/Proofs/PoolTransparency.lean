import Mathlib.Logic.Function.Basic
import Switchboard.Proofs.Pools.Twins

/-! Pools do not show. Connections that share a pool of packets and a pool of contexts do the same whatever the pools
    keep: nothing of one use of a packet or a context is left for the next. -/

namespace Switchboard

/-- Connections that share their pools; each has them while it works. -/
structure Fleet (ι : Type) where
  packets : PacketPool
  contexts : ContextPool
  engines : ι → Engine

namespace Fleet

/-- Something is done with one of the connections, or what is around it changes. -/
inductive Turn (ι : Type) where
  | act (i : ι) (depth : Nat) (a : Engine.Act)
  | around (i : ι) (line : Line) (hosted : Bool)

variable {ι : Type} {f g : Fleet ι}

/-- A connection with the pools. -/
def engine (f : Fleet ι) (i : ι) : Engine :=
  { f.engines i with issuer := { (f.engines i).issuer with pool := f.packets }, contexts := f.contexts }

/-- New connections with new pools. -/
def outset (packets contexts : Nat) : Fleet ι :=
  { packets := { capacity := packets }, contexts := { capacity := contexts }, engines := fun _ => {} }

variable [DecidableEq ι]

/-- A connection comes back with the pools. -/
def put (f : Fleet ι) (i : ι) (s : Engine) : Fleet ι :=
  { packets := s.issuer.pool, contexts := s.contexts, engines := Function.update f.engines i s }

def turn (setups : ι → Setup) (f : Fleet ι) : Turn ι → Except Halt (Engine.Outcome × Fleet ι)
  | .act i depth a => (Engine.act (setups i) depth a (f.engine i)).map fun x => (x.1, f.put i x.2)
  | .around i line hosted => .ok (.none, f.put i { f.engine i with line, hosted })

/-- One turn after the other, as long as none stops short. -/
def run (setups : ι → Setup) : List (Turn ι) → Fleet ι → Except Halt (List Engine.Outcome × Fleet ι)
  | [], f => .ok ([], f)
  | turn :: rest, f => do
    let (o, f) ← f.turn setups turn
    let (os, f) ← run setups rest f
    return (o :: os, f)

end Fleet

/-! ### Runs that agree -/

/-- Connections that are others but for their pools, and pools that gave out and got back as many. -/
structure Fleet.Alike {ι : Type} (f g : Fleet ι) : Prop where
  packets : f.packets.Like g.packets
  contexts : f.contexts.Like g.contexts
  engines : ∀ i, (f.engine i).Alike (g.engine i)

/-- Two fleets come to the same results and are alike, or both stop short for the same reason. -/
inductive Fleet.Agree {ι α : Type} : Except Halt (α × Fleet ι) → Except Halt (α × Fleet ι) → Prop where
  | ends (a : α) {f g : Fleet ι} (alike : f.Alike g) : Agree (.ok (a, f)) (.ok (a, g))
  | halts (halt : Halt) : Agree (.error halt) (.error halt)

/-- Connections that are alike are so with pools that are alike. -/
theorem Engine.Alike.lend {s t : Engine} (alike : s.Alike t) {a b : PacketPool} {c d : ContextPool} (packets : a.Like b)
    (contexts : c.Like d) : ({ s with issuer := { s.issuer with pool := a }, contexts := c } : Engine).Alike
      { t with issuer := { t.issuer with pool := b }, contexts := d } := by
  obtain ⟨-, -, replies, story⟩ := alike
  exact .intro packets contexts replies story

theorem Engine.Alike.around {s t : Engine} (alike : s.Alike t) (line : Line) (hosted : Bool) :
    ({ s with line, hosted } : Engine).Alike { t with line, hosted } := by
  obtain ⟨packets, contexts, replies, story⟩ := alike
  exact .intro packets contexts replies story

namespace Fleet

variable {ι : Type} [DecidableEq ι] {f g : Fleet ι} {setups setups' : ι → Setup}

omit [DecidableEq ι] in
theorem alike_outset (p c p' c' : Nat) : (outset p c : Fleet ι).Alike (outset p' c') where
  packets := ⟨rfl, rfl, List.forall_mem_nil _, List.forall_mem_nil _⟩
  contexts := ⟨rfl, rfl, List.forall_mem_nil _, List.forall_mem_nil _⟩
  engines _ := .intro ⟨rfl, rfl, List.forall_mem_nil _, List.forall_mem_nil _⟩
    ⟨rfl, rfl, List.forall_mem_nil _, List.forall_mem_nil _⟩ rfl rfl

theorem Alike.put (alike : f.Alike g) (i : ι) {s t : Engine} (own : s.Alike t) : (f.put i s).Alike (g.put i t) := by
  have pools : s.issuer.pool.Like t.issuer.pool ∧ s.contexts.Like t.contexts := by
    obtain ⟨packets, contexts, -, -⟩ := own
    exact ⟨packets, contexts⟩
  refine ⟨pools.1, pools.2, fun j => ?_⟩
  unfold engine Fleet.put
  dsimp only
  -- The connection that was at work comes back itself; the others see its pools only.
  by_cases same : j = i
  · subst same
    rw [Function.update_self, Function.update_self]
    exact own
  · rw [Function.update_of_ne same, Function.update_of_ne same]
    exact (alike.engines j).lend pools.1 pools.2

/-- A turn agrees, and leaves fleets that are alike. -/
theorem Alike.turn (alike : f.Alike g) (kin : ∀ i, (setups i).Kin (setups' i)) (next : Turn ι) :
    Agree (f.turn setups next) (g.turn setups' next) := by
  cases next with
  | act i depth a =>
    have agree := Engine.act_twins (kin i) depth a _ _ (alike.engines i)
    unfold Fleet.turn
    dsimp only
    generalize Engine.act (setups i) depth a (f.engine i) = x, Engine.act (setups' i) depth a (g.engine i) = y at agree ⊢
    cases agree with
    | ends same own =>
      cases same
      exact .ends _ (alike.put i own)
    | halts halt => exact .halts halt
  | around i line hosted => exact .ends _ (alike.put i ((alike.engines i).around line hosted))

/-- Runs agree. -/
theorem Alike.run (alike : f.Alike g) (kin : ∀ i, (setups i).Kin (setups' i)) (turns : List (Turn ι)) :
    Agree (f.run setups turns) (g.run setups' turns) := by
  induction turns generalizing f g with
  | nil => exact .ends [] alike
  | cons next rest ih =>
    have agree := alike.turn kin next
    unfold Fleet.run
    generalize f.turn setups next = x, g.turn setups' next = y at agree ⊢
    cases agree with
    | halts halt => exact .halts halt
    | @ends o f g alike =>
      have agree := ih alike
      change Agree ((f.run setups rest).bind fun x => .ok (o :: x.1, x.2))
        ((g.run setups' rest).bind fun x => .ok (o :: x.1, x.2))
      generalize f.run setups rest = x, g.run setups' rest = y at agree ⊢
      cases agree with
      | halts halt => exact .halts halt
      | ends os alike => exact .ends (o :: os) alike

end Fleet

/-! ### What handlers find -/

/-- A chain of handlers whose first one is told a peer. -/
def tell (peer : Option Peer) : List Program → List Program
  | [] => []
  | handler :: rest => .setPeer peer handler :: rest

/-- A router all of whose chains are told a peer. -/
def Router.tell (r : Router Program) (peer : Option Peer) : Router Program :=
  { r with
    uris := r.uris.map fun e => (e.1, Switchboard.tell peer e.2)
    ids := r.ids.map fun e => (e.1, Switchboard.tell peer e.2)
    fallback := r.fallback.map (Switchboard.tell peer) }

/-- The handlers of inbound packets are told the peer of the connection, and the callbacks are told that there is none. -/
def Setup.tell (setup : Setup) : Setup :=
  { setup with
    router := setup.router.tell setup.peer
    responseFilter := fun p => .setPeer none (setup.responseFilter p) }

theorem told_resolve (r : Router Program) (peer : Option Peer) (p : Packet) :
    Told peer (r.resolve p) ((r.tell peer).resolve p) := by
  have number : (r.tell peer).byId p = (r.byId p).map (tell peer) := by
    unfold Router.byId
    split
    · rfl
    · exact lookup_map_snd _ r.ids p.id
  have text : (r.tell peer).uris.lookup p.uri = (r.uris.lookup p.uri).map (tell peer) := lookup_map_snd _ r.uris p.uri
  have fallback : (r.tell peer).fallback = r.fallback.map (tell peer) := rfl
  unfold Router.resolve
  rw [number, text, fallback, ← Option.map_or, ← Option.map_or]
  rcases (r.byId p).or ((r.uris.lookup p.uri).or r.fallback) with _ | _ | ⟨handler, rest⟩
  · exact .untold _
  · exact .untold _
  · exact .told handler rest

theorem Setup.kin_tell (setup : Setup) : setup.Kin setup.tell :=
  .intro (told_resolve setup.router setup.peer) fun _ => .told

namespace Fleet

/-- Pools do not show, whatever they may keep: fleets that differ in the capacities of their pools come to the same
    results, and every connection ends with the same frames, reports, sessions, load and counts, but for how much the
    pools keep. Nor does it show when the handlers of inbound packets are told to find the peer of their connection, and
    the callbacks to find none: they do. -/
theorem pools_do_not_show {ι : Type} [DecidableEq ι] (setups : ι → Setup) (turns : List (Turn ι)) (p c p' c' : Nat) :
    Agree ((outset p c).run setups turns) ((outset p' c').run setups turns) ∧
    Agree ((outset p c).run setups turns) ((outset p' c').run (fun i => (setups i).tell) turns) :=
  ⟨(alike_outset p c p' c').run (fun i => .refl (setups i)) turns,
    (alike_outset p c p' c').run (fun i => (setups i).kin_tell) turns⟩

/-- How many packets a pool keeps after a notice. -/
def keptAfterNotice (capacity : Nat) : Option Nat :=
  ((outset capacity 0).run (fun _ : Unit => {}) [.act () 0 (.notify { route := .uri "r", body := .ok [] })]).toOption.map
    fun x => x.2.packets.idle.length

example : keptAfterNotice 0 = some 0 ∧ keptAfterNotice 1 = some 1 := by decide +kernel

end Fleet
end Switchboard
