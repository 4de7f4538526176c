import Switchboard.Engine.Call
import Switchboard.Scenario.Script
import Switchboard.Settings

/-! One end of a connection in a scenario: how it is described, and how it is built. -/

namespace Switchboard
namespace Scenario

/-- A route of a node: its key, its own handlers and its last one. -/
structure RouteSpec where
  route : Route
  own : List Program
  last : Program

structure NodeSpec where
  /-- The node only dispatches; it makes no calls. -/
  plain : Bool := false
  settings : Option String := none
  layout : Option Layout := none
  limit : Option Nat := none
  key : Option Bytes := none
  packets : Option Nat := none
  contexts : Option Nat := none
  loadLimit : Option Int := none
  /-- An earlier node whose pools, framing and filters this one has too. -/
  share : Option Nat := none
  dataFilters : List (Bytes → Filtered Bytes) := []
  packetFilters : List (Packet → Filtered Packet) := []
  middlewares : List Program := []
  routes : List RouteSpec := []
  fallback : Option (List Program × Program) := none
  peer : Option Peer := none
  responseFilter : Option (Packet → Program) := none
  /-- Interceptors, of which each takes the place of the one before. -/
  intercept : List String := []
  spawner : Spawner := .keep

/-- The pools of a node, which nodes may share. -/
structure Depot where
  packets : PacketPool
  contexts : ContextPool

/-- A node: how it is set up, which pools it has, its state, and the frames it wrote. -/
structure Node where
  plain : Bool
  setup : Setup
  depot : Nat
  engine : Engine := {}
  /-- The frames that it kept a record of, in order. -/
  frames : List Bytes := []
  /-- How many of them were pumped to another node. -/
  pumped : Nat := 0

/-- The framing and the pools that a description asks for. -/
def NodeSpec.base (spec : NodeSpec) : Except Fault (Framing × Depot) := do
  let settings ← match spec.settings with
    | none => .ok {}
    | some text => Settings.parse text
  let framing ← settings.framing
  let mask ← match spec.key with
    | none => .ok framing.mask
    | some key => Mask.ofKey key
  let framing : Framing :=
    { layout := spec.layout.getD framing.layout, limit := spec.limit.getD framing.limit, mask }
  let depot : Depot :=
    { packets := { capacity := spec.packets.getD settings.packets }
      contexts := { capacity := spec.contexts.getD settings.contexts } }
  return (framing, depot)

def NodeSpec.router (spec : NodeSpec) : Except Fault (Router Program) := do
  let start : Router Program := ({} : Router Program).use spec.middlewares
  let router ← spec.routes.foldlM (fun r s => r.register s.route s.own s.last) start
  return match spec.fallback with
    | none => router
    | some (own, last) => router.setFallback own last

/-- What shows packets to whom before the filters. -/
def NodeSpec.hook (spec : NodeSpec) : Hook :=
  if spec.plain then
    match spec.intercept.getLast? with
    | none => .none
    | some uri => .custom (Script.interceptor uri)
  else .replies

def NodeSpec.build (spec : NodeSpec) (nodes : List Node) (depots : List Depot) :
    Except Fault (Node × List Depot) := do
  let shared := spec.share.bind fun i => nodes[i]?
  let (setup, depot, depots) ← match shared with
    | some node => .ok (node.setup, node.depot, depots)
    | none => do
      let (framing, depot) ← spec.base
      let setup : Setup :=
        { framing, dataFilters := spec.dataFilters, packetFilters := spec.packetFilters
          overloaded := spec.loadLimit.map fun limit load => decide (limit < load) }
      .ok (setup, depots.length, depots ++ [depot])
  let router ← spec.router
  let setup : Setup :=
    { setup with
      router, hook := spec.hook, peer := spec.peer, spawner := spec.spawner
      responseFilter := spec.responseFilter.getD fun _ => .next .done }
  return ({ plain := spec.plain, setup, depot }, depots)

end Scenario
end Switchboard
