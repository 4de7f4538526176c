import Switchboard.Engine.State

/-! Running handlers and writing frames. What a handler or the far side of the line does may come back
    to the connection in two ways, taking in a frame and ending all calls; these are parameters here
    (`Inner`), so nothing in this module is recursive but for the recursion on programs and chains. -/

namespace Switchboard

/-- How work that is under way comes back to its connection. -/
structure Inner where
  receive : Bytes → EngineM (Except Fault Unit)
  close : EngineM Unit

namespace Engine

variable (setup : Setup) (inner : Inner)

/-! ### Writing -/

def receiveFrame (frame : Except Fault Bytes) : EngineM (Except Fault Unit) :=
  match frame with
  | .ok frame => inner.receive frame
  | .error fault => pure (.error fault)

def react : List Reaction → EngineM Unit
  | [] => pure ()
  | .close :: rest => do
    inner.close
    react rest
  | .receive frame event :: rest => do
    let result ← receiveFrame inner frame
    record (.event (event result))
    react rest

/-- Counts a frame, and notes it if the line keeps its frames. -/
def countFrame (frame : Bytes) : EngineM Unit :=
  modify fun s =>
    let counted := { s with writes := s.writes + 1 }
    if s.line.kept then counted.note (.wrote frame) else counted

def write (frame : Bytes) : EngineM (Except Fault Unit) := do
  let s ← get
  countFrame frame
  react inner (s.line.reactions s.writes frame)
  pure (s.line.result s.writes frame)

/-- Frames a packet and writes it; the packet stays with its holder. -/
def send (p : Parcel) : EngineM (Parcel × Except Fault Unit) :=
  match p.frame setup.framing with
  | (p, .error fault) => pure (p, .error fault)
  | (p, .ok frame) => do
    let result ← write inner frame
    pure (p, result)

/-- Puts content into a packet, sends it, and gives it back whatever happens. -/
def sendAway (p : Parcel) (content : Except Fault Content) : EngineM (Except Fault Unit) := do
  match p.load content with
  | (p, .error fault) =>
    putParcel p
    pure (.error fault)
  | (p, .ok ()) =>
    let (p, result) ← send setup inner p
    putParcel p
    pure result

/-- Responds to the packet of a context, which stays as it is. -/
def respond (c : Context) (content : Except Fault Content) (metadata : Metadata) :
    EngineM (Except Fault Unit) :=
  match c.mayRespond with
  | .error fault => pure (.error fault)
  | .ok () => do
    let p ← answer c.parcel.toPacket metadata
    sendAway setup inner p content

def notify (m : Outbound) : EngineM (Except Fault Unit) := do
  let p ← issue .notify m
  sendAway setup inner p (m.body.map .value)

/-- Hands callbacks to whoever waits for the reply to their request. -/
def takeUp (pending : Pending) (limit : Duration) : EngineM Unit :=
  match setup.spawner with
  | .drop => stopListening pending.ticket
  | .ambient | .keep => modify fun s => { s with waits := s.waits ++ [{ pending, limit }] }

/-- Registers callbacks for the reply to their request and writes the request's frame. With a timeout
    someone else waits for the reply. -/
def expectReply (m : Outbound) (pending : Pending) (frame : Bytes) : EngineM (Except Fault Unit) := do
  let entry : Session := match m.timeout with
    | none => .callback pending
    | some _ => .waiting pending.ticket true
  match ← register entry pending.request.toPacket with
  | .refused =>
    putParcel pending.request
    pure (.error (.notSent m.route))
  | .accepted =>
    match ← write inner frame, m.timeout with
    | .ok (), none => pure (.ok ())
    | .ok (), some limit =>
      takeUp setup pending limit
      pure (.ok ())
    | .error fault, none =>
      record (.unsent pending.ticket fault)
      match ← discard pending.request.session with
      | none => pure (.ok ())
      | some (.callback orphan) =>
        putParcel orphan.request
        pure (.error fault)
      | some (.waiting _ _) => pure (.error fault)
    | .error fault, some _ =>
      record (.unsent pending.ticket fault)
      let _ ← discard pending.request.session
      let _ ← takeMail pending.ticket
      putParcel pending.request
      pure (.error fault)

/-- Makes the request of an asynchronous call and registers its callbacks. A timeout needs someone to
    wait. -/
def request (m : Outbound) (callbacks : List Program) (ticket : Nat) : EngineM (Except Fault Unit) := do
  let hosted := (← get).hosted
  if m.timeout.isSome ∧ setup.spawner = .ambient ∧ !hosted then pure (.error .noRuntime)
  else
    let p ← issue .request m
    match p.load (m.body.map .value) with
    | (p, .error fault) =>
      putParcel p
      pure (.error fault)
    | (p, .ok ()) =>
      match p.frame setup.framing with
      | (p, .error fault) =>
        putParcel p
        pure (.error fault)
      | (p, .ok frame) =>
        expectReply setup inner m { ticket, callbacks, request := p.takeScratch } frame

/-- Sends a request and registers callbacks for its reply; they run once if this succeeds, and never
    otherwise. -/
def callAsync (m : Outbound) (callbacks : List Program) : EngineM (Except Fault Unit) := do
  let ticket ← openTicket
  record (.calledAsync ticket m callbacks)
  let result ← request setup inner m callbacks ticket
  record (.returned ticket result)
  pure result

/-! ### Handlers -/

/-- Runs a program on a context; `onNext` runs the handlers after it. -/
def perform (onNext : Context → EngineM Context) : Program → Context → EngineM Context
  | .done, c => pure c
  | .next rest, c => do
    let c ← onNext c
    perform onNext rest c
  | .abort rest, c => perform onNext rest c.abort
  | .edit change rest, c => perform onNext rest (c.edit change)
  | .setPeer peer rest, c => perform onNext rest (c.setPeer peer)
  | .look rest, c => do
    let view : View :=
      { packet := c.parcel.toPacket, aborted := c.aborted, peer := c.peer, load := (← get).load }
    record (.looked view.load)
    perform onNext (rest view) c
  | .respond content metadata rest, c => do
    let result ← respond setup inner c content metadata
    perform onNext (rest result) c
  | .receive frame rest, c => do
    let result ← inner.receive frame
    perform onNext (rest result) c
  | .close rest, c => do
    inner.close
    perform onNext rest c
  | .notify m rest, c => do
    let result ← notify setup inner m
    perform onNext (rest result) c
  | .callAsync m callbacks rest, c => do
    let result ← callAsync setup inner m callbacks
    perform onNext (rest result) c
  | .report event rest, c => do
    record (.event event)
    perform onNext rest c
  | .reportCounts source rest, c => do
    record (.event { source with sight := .counts (← get).counts })
    perform onNext rest c

/-- Runs handlers within those already running; the packet is given back when the outermost run ends. -/
def within (run : Context → EngineM Context) (c : Context) : EngineM Context := do
  let c ← run c.enter
  let c := c.leave
  if c.depth = 0 then release c else pure c

/-- Runs the handlers of a chain from a position on, unless they have run or are to be skipped. -/
def runFrom : Nat → List Program → Context → EngineM Context
  | _, [], c => pure c
  | position, handler :: rest, c =>
    if c.isDue position then do
      record (.started position)
      let c ← perform setup inner (within (runFrom (position + 1) rest)) handler c.start
      runFrom (position + 1) rest c
    else pure c

def next (chain : List Program) : Context → EngineM Context := within (runFrom setup inner 0 chain)

/-- Lets a context go its way, then gives back its packet and the context. -/
def drive (entry : Context → EngineM Context) (c : Context) : EngineM Unit := do
  let c ← entry c
  let c ← release c
  putContext c

/-- Runs the callbacks of a request with the packet that ended it, then gives back the request. -/
def deliver (pending : Pending) (p : Parcel) : EngineM Unit := do
  record (.delivered pending p.toPacket)
  let c ← takeContext
  drive
    (perform setup inner (next setup inner pending.callbacks)
      (setup.responseFilter pending.request.toPacket))
    (c.bind p false)
  putParcel pending.request

/-- The packet that reports a failure as if the far side had reported it. -/
def synthesize (request : Packet) (fault : Fault) : EngineM Parcel := do
  let p ← answer request .empty
  pure (p.edit (·.carry (.ofFault fault)))

end Engine
end Switchboard
