import Switchboard.Engine.Run

/-! What a connection does with a frame that arrives, and with its pending calls when it is closed. An
    inbound frame passes the data filters, is decoded, is shown to the interceptor, passes the packet
    filters, is routed, is weighed, and meets its chain; whatever ends its way early gives the packet
    back. Handlers may do both again from within, as deep as `Engine.nested` allows. -/

namespace Switchboard
namespace Engine

variable (setup : Setup) (inner : Inner)

/-! ### Filters -/

/-- Passes octets through the data filters; none when one of them stops the frame. -/
def filterData : List (Bytes → Filtered Bytes) → Bytes → EngineM (Except Fault (Option Bytes))
  | [], data => pure (.ok (some data))
  | filter :: rest, data => do
    let result := filter data
    reportAll result.events
    match result.verdict with
    | .error fault => pure (.error fault)
    | .ok .stop => pure (.ok none)
    | .ok .pass => filterData rest result.value

/-- Passes a packet through the packet filters, and says whether it may go on. -/
def filterPacket : List (Packet → Filtered Packet) → Parcel → EngineM (Parcel × Except Fault Verdict)
  | [], p => pure (p, .ok .pass)
  | filter :: rest, p => do
    let result := filter p.toPacket
    reportAll result.events
    let p := p.edit fun _ => result.value
    match result.verdict with
    | .ok .pass => filterPacket rest p
    | verdict => pure (p, verdict)

/-! ### Replies -/

def acceptReply (p : Parcel) : EngineM Unit := do
  match ← takeSession p.session with
  | none =>
    record (.unmatched p.toPacket)
    putParcel p
  | some entry =>
    record (.matched entry.ticket p.toPacket)
    match entry with
    | .callback pending => deliver setup inner pending p
    | .waiting ticket true => modify fun s => { s with mail := s.mail ++ [(ticket, p)] }
    | .waiting _ false => putParcel p

/-- Shows a packet to the interceptor, which may keep it. -/
def intercept (p : Parcel) : EngineM (Option Parcel) :=
  match setup.hook with
  | .none => pure (some p)
  | .replies =>
    if p.command = .response then do
      acceptReply setup inner p
      pure none
    else pure (some p)
  | .custom look => do
    let result := look p.toPacket
    reportAll result.events
    match result.packet with
    | none =>
      putParcel p
      pure none
    | some q => pure (some (p.edit fun _ => q))

/-! ### Dispatch -/

/-- Counts a packet towards the load, unless the connection is overloaded. -/
def weigh : EngineM (Option Bool) :=
  match setup.overloaded with
  | none => pure (some false)
  | some overloaded => do
    let load := (← get).load + 1
    record (.weighed load (overloaded load))
    if overloaded load then pure none
    else
      modify fun s => { s with load }
      pure (some true)

def dispatch (p : Parcel) : EngineM (Except Fault Unit) :=
  match setup.router.resolve p.toPacket with
  | .error fault => do
    putParcel p
    pure (.error fault)
  | .ok chain => do
    match ← weigh setup with
    | none =>
      putParcel p
      pure (.ok ())
    | some counted =>
      record (.routed p.toPacket)
      let c ← takeContext
      drive (next setup inner chain) ((c.bind p counted).setPeer setup.peer)
      pure (.ok ())

def welcome (p : Parcel) : EngineM (Except Fault Unit) := do
  match ← intercept setup inner p with
  | none => pure (.ok ())
  | some p =>
    record (.screened p.toPacket)
    match ← filterPacket setup.packetFilters p with
    | (p, .ok .pass) => dispatch setup inner p
    | (p, .ok .stop) =>
      putParcel p
      pure (.ok ())
    | (p, .error fault) =>
      putParcel p
      pure (.error fault)

def receiveWith (data : Bytes) : EngineM (Except Fault Unit) := do
  match ← filterData setup.dataFilters data with
  | .error fault => pure (.error fault)
  | .ok none => pure (.ok ())
  | .ok (some data) =>
    let p ← takeParcel
    match p.unframe setup.framing data with
    | (p, .error fault) =>
      putParcel p
      pure (.error fault)
    | (p, .ok ()) => welcome setup inner p

/-! ### Closing -/

/-- Ends sessions: callers find their session gone, and callbacks run with a closing fault. -/
def endAll : List (UInt64 × Session) → EngineM Unit
  | [] => pure ()
  | (_, .waiting _ _) :: rest => endAll rest
  | (_, .callback pending) :: rest => do
    let p ← synthesize pending.request.toPacket .closedWaiting
    deliver setup inner pending p
    endAll rest

/-- Ends all pending calls; after this none is registered any more. -/
def closeWith : EngineM Unit := do
  record .closed
  let sessions ← drain
  endAll setup inner (setup.sweep sessions)

/-! ### Coming back from within -/

/-- How work comes back to its connection when that may happen `depth` times within itself. -/
def nested : Nat → Inner
  | 0 => { receive := fun _ => throw .tooDeep, close := throw .tooDeep }
  | depth + 1 =>
    { receive := fun data => receiveWith setup (nested depth) data
      close := closeWith setup (nested depth) }

end Engine
end Switchboard
