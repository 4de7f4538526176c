import Switchboard.Scenario.Node

/-! Several ends of connections on one clock, and what can be done with them step by step. After each
    step pending calls are polled in the order in which they were made, then the waits that the bench
    keeps in theirs, then the runtime has its turn, often enough for all to settle. -/

namespace Switchboard
namespace Scenario

/-- A call that was made in a scenario: on which node, under which name, and what its reply looks like. -/
structure PendingCall where
  node : Nat
  ticket : Nat
  name : String
  shape : Json.Shape

structure WaitKey where
  node : Nat
  ticket : Nat
  deriving DecidableEq

/-- The waits that a runtime has taken up as its tasks. -/
structure Runtime where
  /-- Those that can go on, first come first. -/
  ready : List WaitKey := []
  /-- Those that wait for a reply or their deadline, in the order in which they began to. -/
  asleep : List WaitKey := []

/-- Several nodes on one clock. -/
structure Bench where
  /-- Nanoseconds since the beginning. -/
  clock : Nat := 0
  nodes : List Node := []
  depots : List Depot := []
  calls : List PendingCall := []
  /-- The waits that the bench polls itself. -/
  waits : List WaitKey := []
  runtime : Runtime := {}
  /-- What was reported since the last step, latest first. -/
  events : List Event := []
  /-- What was written since the last step, latest first. -/
  written : List (Nat × Bytes) := []

abbrev BenchM := StateT Bench (Except Halt)

/-- What an answer to a frame is to carry. -/
structure ReplySpec where
  content : Except Fault Content
  metadata : Metadata := .empty
  change : PacketChange := {}

/-- What a node's line does from now on. -/
structure LineSpec where
  quiet : Bool := false
  close : Bool := false
  reply : Option ReplySpec := none
  fault : Option Fault := none

inductive Step where
  | read (node : Nat) (data : Bytes)
  | packet (node : Nat) (change : PacketChange) (content : Option (Except Fault Content)) (cut : Option Nat)
  | deliver (node source frame : Nat)
  | pump (node source : Nat)
  | reply (node frame : Nat) (spec : ReplySpec)
  | call (node : Nat) (name : String) (message : Outbound) (shape : Json.Shape)
  | callAsync (node : Nat) (message : Outbound) (callbacks : List Program)
  | notify (node : Nat) (message : Outbound)
  | cancel (name : String)
  | nextSession (node : Nat)
  | close (node : Nat)
  | state (node : Nat)
  | advance (milliseconds : Nat)
  | output (node : Nat) (line : LineSpec)

inductive Answer where
  | none
  | outcome (r : Except Fault Unit)
  | outcomes (rs : List (Except Fault Unit))
  | count (n : Nat)
  | text (s : String)

/-! ### Frames made up for a node -/

/-- The frame of a packet with some changes, carrying some content, and cut off. -/
def packetFrame (framing : Framing) (change : PacketChange) (content : Option (Except Fault Content))
    (cut : Option Nat) : Except Fault Bytes := do
  let p := change.apply .blank
  let p ← match content with
    | none => .ok p
    | some (.ok c) => .ok (p.carry c)
    | some (.error fault) => .error fault
  let frame ← framing.encode p
  return match cut with
    | none => frame
    | some n => frame.take n

/-- The frame that answers a frame. -/
def answerFrame (framing : Framing) (spec : ReplySpec) (frame : Bytes) : Except Fault Bytes := do
  let request ← framing.decode frame
  let content ← spec.content
  framing.encode (spec.change.apply ((Packet.blank.answer request spec.metadata).carry content))

def LineSpec.line (spec : LineSpec) (framing : Framing) : Line :=
  { kept := !spec.quiet
    reactions := fun _ frame =>
      (if spec.close then [.close] else []) ++
      match spec.reply with
      | none => []
      | some reply =>
        [.receive (answerFrame framing reply frame) fun r =>
          { session := none, who := "output", what := "reply", sight := .outcome r }]
    result := fun _ _ =>
      match spec.fault with
      | none => .ok ()
      | some fault => .error fault }

namespace Bench

/-- The node with a number; there is always one. -/
def node (b : Bench) (i : Nat) : Node := b.nodes.getD i { plain := true, setup := {}, depot := 0 }

def depot (b : Bench) (i : Nat) : Depot := b.depots.getD i { packets := {}, contexts := {} }

/-- Takes in what a node's journal says happened. -/
def absorb (i : Nat) (b : Bench) : List Entry → Bench
  | [] => b
  | .event e :: rest => absorb i { b with events := e :: b.events } rest
  | .weighed load _ :: rest =>
    let e : Event := { session := none, who := "load", what := "check", sight := .load load }
    absorb i { b with events := e :: b.events } rest
  | .wrote frame :: rest =>
    let node := b.node i
    let nodes := b.nodes.set i { node with frames := node.frames ++ [frame] }
    absorb i { b with nodes, written := (i, frame) :: b.written } rest
  | _ :: rest => absorb i b rest

/-- Hands a new wait of a node to whoever takes it up. -/
def takeUp (b : Bench) (w : WaitKey) : Bench :=
  match (b.node w.node).setup.spawner with
  | .ambient => { b with runtime := { b.runtime with ready := b.runtime.ready ++ [w] } }
  | _ => { b with waits := b.waits ++ [w] }

/-- Makes tasks ready that were asleep, in the order given. -/
def rouse (b : Bench) (woken : List WaitKey) : Bench :=
  { b with
    runtime :=
      { ready := b.runtime.ready ++ woken
        asleep := b.runtime.asleep.filter fun w => !woken.contains w } }

/-- The sleeping tasks of a node that can go on: those with a reply in the order of the replies, then
    those whose session has ended. -/
def stirred (b : Bench) (i : Nat) : List WaitKey :=
  let engine := (b.node i).engine
  let own := b.runtime.asleep.filter fun w => w.node == i
  let replied := engine.mail.filterMap fun m => own.find? fun w => w.ticket == m.1
  let ended := own.filter fun w =>
    !engine.table.holds w.ticket && !replied.contains w
  replied ++ ended

def act (i : Nat) (a : Engine.Act) : BenchM Engine.Outcome := fun b => do
  let node := b.node i
  let depot := b.depot node.depot
  let engine : Engine :=
    { node.engine with
      issuer := { node.engine.issuer with pool := depot.packets }, contexts := depot.contexts
      journal := [] }
  let (outcome, engine) ← Engine.act node.setup Engine.depthLimit a engine
  let depots := b.depots.set node.depot { packets := engine.issuer.pool, contexts := engine.contexts }
  let nodes := b.nodes.set i { node with engine := { engine with journal := [] } }
  let known := node.engine.waits.map (·.pending.ticket)
  let fresh := (engine.waits.map (·.pending.ticket)).filter fun t => !known.contains t
  let b := (fresh.map fun ticket => { node := i, ticket }).foldl takeUp { b with depots, nodes }
  return (outcome, absorb i (b.rouse (b.stirred i)) engine.journal.reverse)

def alter (i : Nat) (f : Node → Node) : BenchM Unit :=
  modify fun b => { b with nodes := b.nodes.set i (f (b.node i)) }

/-! ### Settling -/

/-- Polls one call; when it is decided its result is reported. -/
def pollCall (c : PendingCall) : BenchM Unit := do
  let now := (← get).clock
  match ← act c.node (.pollCall now c.ticket) with
  | .polled (some result) =>
    let decoded := result.bind (Json.decode c.shape)
    let e : Event := { session := none, who := "call", what := c.name, sight := .decoded decoded }
    modify fun b =>
      { b with events := e :: b.events, calls := b.calls.filter fun d => !(d.node == c.node && d.ticket == c.ticket) }
  | _ => pure ()

/-- Polls one wait, and says whether it has ended. -/
def pollWait (w : WaitKey) : BenchM Bool := do
  let now := (← get).clock
  let _ ← act w.node (.pollWait now w.ticket)
  return !(((← get).node w.node).engine.waits.any fun v => v.pending.ticket == w.ticket)

/-- Polls one of the bench's own waits; when it has ended it is forgotten. -/
def pollKept (w : WaitKey) : BenchM Unit := do
  if ← pollWait w then
    modify fun b => { b with waits := b.waits.filter fun v => v != w }

/-- Runs the tasks that are ready, one after another; `limit` is how many a turn may run. -/
def runTasks : (limit : Nat) → BenchM Unit
  | 0 => pure ()
  | limit + 1 => do
    match (← get).runtime.ready with
    | [] => pure ()
    | w :: rest =>
      modify fun b => { b with runtime := { b.runtime with ready := rest } }
      if !(← pollWait w) then
        modify fun b => { b with runtime := { b.runtime with asleep := b.runtime.asleep ++ [w] } }
      runTasks limit

def turnLimit : Nat := 61

/-- When a task's time is over, in whole milliseconds. -/
def alarm (b : Bench) (w : WaitKey) : Option Nat := do
  let wait ← (b.node w.node).engine.waits.find? fun v => v.pending.ticket == w.ticket
  return (((← wait.deadline) + 999999) / 1000000)

/-- Wakes the tasks whose time is over, the earliest first. -/
def ringAlarms (b : Bench) : Bench :=
  let due := b.runtime.asleep.filterMap fun w =>
    (b.alarm w).bind fun time => if time * 1000000 ≤ b.clock then some (time, w) else none
  b.rouse ((due.mergeSort fun d e => d.1 ≤ e.1).map (·.2))

def each {α : Type} (f : α → BenchM Unit) : List α → BenchM Unit
  | [] => pure ()
  | a :: rest => do
    f a
    each f rest

def settle : Nat → BenchM Unit
  | 0 => pure ()
  | rounds + 1 => do
    each pollCall (← get).calls
    each pollKept (← get).waits
    runTasks turnLimit
    settle rounds

/-! ### Steps -/

/-- Has a node take in a frame, if there is one. -/
def receive (i : Nat) (frame : Except Fault Bytes) : BenchM (Except Fault Unit) :=
  match frame with
  | .error fault => pure (.error fault)
  | .ok data => do
    match ← act i (.receive data) with
    | .done result => pure result
    | _ => pure (.ok ())

/-- Has a node take in the frames of another from a position on; `fuel` bounds their number. -/
def pumpAll (i source : Nat) : Nat → BenchM (List (Except Fault Unit))
  | 0 => pure []
  | fuel + 1 => do
    let node := (← get).node source
    match node.frames[node.pumped]? with
    | none => pure []
    | some frame =>
      alter source fun n => { n with pumped := n.pumped + 1 }
      let result ← receive i (.ok frame)
      let more ← pumpAll i source fuel
      pure (result :: more)

def pumpLimit : Nat := 10000

/-- A session comes before another in a sorted list of reports; those without one come first. -/
def sessionLe (a b : Event) : Bool :=
  match a.session, b.session with
  | none, _ => true
  | some _, none => false
  | some s, some t => s ≤ t

def describe (n : Node) : String :=
  if n.plain then "Process"
  else "RpcProcess \x7b pending: " ++ toString n.engine.table.entries.length ++ ", .. \x7d"

def work : Step → BenchM Answer
  | .read i data => .outcome <$> receive i (.ok data)
  | .packet i change content cut => do
    let framing := ((← get).node i).setup.framing
    .outcome <$> receive i (packetFrame framing change content cut)
  | .deliver i source frame => do
    .outcome <$> receive i (.ok (((← get).node source).frames.getD frame []))
  | .pump i source => .outcomes <$> pumpAll i source pumpLimit
  | .reply i frame spec => do
    let node := (← get).node i
    .outcome <$> receive i (answerFrame node.setup.framing spec (node.frames.getD frame []))
  | .call i name message shape => do
    match ← act i (.startCall message) with
    | .ticket ticket => modify fun b => { b with calls := b.calls ++ [{ node := i, ticket, name, shape }] }
    | _ => pure ()
    pure .none
  | .callAsync i message callbacks => do
    match ← act i (.callAsync message callbacks) with
    | .done result => pure (.outcome result)
    | _ => pure .none
  | .notify i message => do
    match ← act i (.notify message) with
    | .done result => pure (.outcome result)
    | _ => pure .none
  | .cancel name => do
    let (dropped, kept) := (← get).calls.partition fun c => c.name == name
    each (fun c => do let _ ← act c.node (.cancelCall c.ticket)) dropped
    modify fun b => { b with calls := kept }
    pure (.count dropped.length)
  | .nextSession i => do
    match ← act i .nextSession with
    | .session n => pure (.text (toString n.toNat))
    | _ => pure .none
  | .close i => do
    if !((← get).node i).plain then
      let _ ← act i .close
      modify fun b => { b with events := (b.events.reverse.mergeSort sessionLe).reverse }
    pure .none
  | .state i => do pure (.text (describe ((← get).node i)))
  | .advance milliseconds => do
    modify fun b => { b with clock := b.clock + milliseconds * 1000000 }
    runTasks turnLimit
    modify ringAlarms
    pure .none
  | .output i spec => do
    alter i fun n => { n with engine := { n.engine with line := spec.line n.setup.framing } }
    pure .none

/-- A runtime is there or is not, for all nodes. -/
def setHosted (hosted : Bool) : BenchM Unit :=
  modify fun b => { b with nodes := b.nodes.map fun n => { n with engine := { n.engine with hosted } } }

structure Manner where
  /-- Nothing is polled after the step. -/
  hold : Bool := false
  /-- There is no runtime during the step. -/
  outside : Bool := false

/-- Takes one step: its own work, then polling. -/
def step (manner : Manner) (s : Step) : BenchM Answer := do
  modify fun b => { b with events := [], written := [] }
  setHosted !manner.outside
  let answer ← work s
  setHosted true
  if !manner.hold then settle 4
  pure answer

/-! ### What shows from outside -/

structure Status where
  pending : Nat
  closed : Bool
  load : Int
  pool : PoolCounts

def status (b : Bench) (n : Node) : Status :=
  let depot := b.depot n.depot
  { pending := if n.plain then 0 else n.engine.table.entries.length
    closed := !n.plain && n.engine.table.closed
    load := n.engine.load
    pool :=
      { gets := depot.packets.gets, puts := depot.packets.puts, packets := depot.packets.idle.length
        contexts := depot.contexts.idle.length } }

def build (specs : List NodeSpec) : Except Fault Bench := do
  let add := fun (b : Bench) (spec : NodeSpec) => do
    let (node, depots) ← spec.build b.nodes b.depots
    return { b with nodes := b.nodes ++ [node], depots }
  specs.foldlM add {}

end Bench
end Scenario
end Switchboard
