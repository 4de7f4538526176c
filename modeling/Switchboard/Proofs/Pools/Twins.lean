import Switchboard.Proofs.Pools.Alike

/-! Everything that is done with a connection agrees with the same done with one that is alike. The handlers of the other
    connection may be told beforehand which peer they are to find: the connection's own those that meet an inbound
    packet, and none those that are called back. It makes no difference. -/

namespace Switchboard

/-- A chain of handlers, or the same chain whose first handler is told a peer. -/
inductive Told (peer : Option Peer) : Except Fault (List Program) → Except Fault (List Program) → Prop where
  | untold (found : Except Fault (List Program)) : Told peer found found
  | told (handler : Program) (rest : List Program) :
    Told peer (.ok (handler :: rest)) (.ok (.setPeer peer handler :: rest))

/-- A program, or the same program that is told a peer. -/
inductive Program.Told (peer : Option Peer) (handler : Program) : Program → Prop where
  | untold : Told peer handler handler
  | told : Told peer handler (.setPeer peer handler)

/-- One way to set up a connection is another, but that handlers may be told which peer they are to find. -/
inductive Setup.Kin (setup : Setup) : Setup → Prop where
  | intro {router : Router Program} {responseFilter : Packet → Program}
    (chains : ∀ p, Switchboard.Told setup.peer (setup.router.resolve p) (router.resolve p))
    (filters : ∀ p, (setup.responseFilter p).Told none (responseFilter p)) :
    Kin setup { setup with router, responseFilter }

theorem Setup.Kin.refl (setup : Setup) : setup.Kin setup := .intro (fun _ => .untold _) fun _ => .untold

theorem Setup.Kin.chains {setup setup' : Setup} (kin : setup.Kin setup') (p : Packet) :
    Switchboard.Told setup.peer (setup.router.resolve p) (setup'.router.resolve p) := by
  obtain ⟨chains, -⟩ := kin
  exact chains p

theorem Setup.Kin.filters {setup setup' : Setup} (kin : setup.Kin setup') (p : Packet) :
    (setup.responseFilter p).Told none (setup'.responseFilter p) := by
  obtain ⟨-, filters⟩ := kin
  exact filters p

open Engine

/-- What comes back from within agrees. -/
structure Inner.Twins (inner inner' : Inner) : Prop where
  receive : ∀ data, Engine.Twins Eq (inner.receive data) (inner'.receive data)
  close : Engine.Twins Eq inner.close inner'.close

namespace Engine

variable {setup setup' : Setup} {inner inner' : Inner} {c d : Context} {p q : Parcel}

theorem countFrame_twins (frame : Bytes) : Twins Eq (countFrame frame) (countFrame frame) :=
  .modify fun _ _ alike => by
    obtain ⟨packets, holders, replies, story⟩ := alike
    dsimp only
    split
    · exact .intro packets holders replies (congrArg (_ :: ·) story)
    · exact .intro packets holders replies story

/-- A handler that finds the peer that it is told is as one that is not told. -/
theorem perform_told {onNext : Context → EngineM Context} {handler handler' : Program} {peer : Option Peer}
    (hears : handler.Told peer handler') (known : c.peer = peer) :
    perform setup inner onNext handler' c = perform setup inner onNext handler c := by
  subst known
  obtain _ | _ := hears <;> rfl

/-- A chain whose first handler is told the peer that it finds does as the chain that is not told. -/
theorem next_told {found : Except Fault (List Program)} {chain : List Program} {peer : Option Peer}
    (hears : Told peer (.ok chain) found) (setup : Setup) (inner : Inner) :
    ∃ chain', found = .ok chain' ∧ ∀ c : Context, c.peer = peer →
      next setup inner chain' c = next setup inner chain c := by
  cases hears with
  | untold => exact ⟨chain, rfl, fun _ _ => rfl⟩
  | told handler rest =>
    refine ⟨_, rfl, fun c known => ?_⟩
    subst known
    rfl

section

variable (twins : inner.Twins inner')
include twins

/-! ### Writing -/

theorem receiveFrame_twins : ∀ frame, Twins Eq (receiveFrame inner frame) (receiveFrame inner' frame)
  | .ok frame => twins.receive frame
  | .error _ => .pure rfl

theorem react_twins : ∀ reactions, Twins Eq (react inner reactions) (react inner' reactions)
  | [] => .pure rfl
  | .close :: rest => twins.close.andThen fun _ => react_twins rest
  | .receive frame event :: rest => (receiveFrame_twins twins frame).andThen fun result =>
      (record_twins (.event (event result))).andThen fun _ => react_twins rest

theorem write_twins (frame : Bytes) : Twins Eq (write inner frame) (write inner' frame) := by
  refine Twins.get.bind fun s t alike => ?_
  obtain ⟨-, -, -, -⟩ := alike
  exact (countFrame_twins frame).andThen fun _ => (react_twins twins _).andThen fun _ => .pure rfl

variable (kin : setup.Kin setup')
include kin

theorem send_twins (like : p.Like q) : Twins Parcel.Likewise (send setup inner p) (send setup' inner' q) := by
  obtain ⟨-, -⟩ := kin
  have framed := like.frame setup.framing
  unfold send
  generalize p.frame setup.framing = x, q.frame setup.framing = y at framed
  obtain ⟨like⟩ := framed
  rcases x with ⟨p, fault | frame⟩
  · exact .pure (.intro like)
  · exact (write_twins twins frame).andThen fun result => .pure (.intro like)

theorem sendAway_twins (like : p.Like q) (content : Except Fault Content) :
    Twins Eq (sendAway setup inner p content) (sendAway setup' inner' q content) := by
  have loaded := like.load content
  unfold sendAway
  generalize p.load content = x, q.load content = y at loaded
  obtain ⟨like⟩ := loaded
  rcases x with ⟨p, fault | _⟩
  · exact putBack_twins p _ rfl
  · refine (send_twins twins kin like).bind fun ⟨p, result⟩ _ sent => ?_
    obtain ⟨-⟩ := sent
    exact putBack_twins p _ rfl

theorem respond_twins (like : c.Like d) (content : Except Fault Content) (metadata : Metadata) :
    Twins Eq (respond setup inner c content metadata) (respond setup' inner' d content metadata) := by
  have may := like.mayRespond
  have same : d.parcel.toPacket = c.parcel.toPacket := by
    obtain ⟨like⟩ := like
    exact like
  unfold respond
  rw [may, same]
  cases c.mayRespond with
  | error fault => exact .pure rfl
  | ok => exact (answer_twins _ metadata).bind fun _ _ like => sendAway_twins twins kin like content

theorem notify_twins (m : Outbound) : Twins Eq (notify setup inner m) (notify setup' inner' m) :=
  (issue_twins .notify m).bind fun _ _ like => sendAway_twins twins kin like (m.body.map .value)

/-! ### Asynchronous calls -/

omit twins in
theorem takeUp_twins (pending : Pending) (limit : Duration) :
    Twins Eq (takeUp setup pending limit) (takeUp setup' pending limit) := by
  obtain ⟨-, -⟩ := kin
  have waits : Twins Eq (modify fun s => { s with waits := s.waits ++ [{ pending, limit }] } : EngineM PUnit)
      (modify fun s => { s with waits := s.waits ++ [{ pending, limit }] }) := .modify fun _ _ alike => by
    obtain ⟨packets, holders, replies, story⟩ := alike
    exact .intro packets holders replies story
  unfold takeUp
  dsimp only
  cases setup.spawner with
  | drop => exact stopListening_twins pending.ticket
  | ambient | keep => exact waits

theorem expectReply_twins (m : Outbound) (pending : Pending) (frame : Bytes) :
    Twins Eq (expectReply setup inner m pending frame) (expectReply setup' inner' m pending frame) := by
  refine (register_twins _ _).andThen fun answer => ?_
  cases answer with
  | refused => exact putBack_twins _ _ rfl
  | accepted =>
    refine (write_twins twins frame).andThen fun result => ?_
    -- What is found in the table and in the mail is the same, so both do the same with it.
    rcases result with fault | _ <;> cases m.timeout
    · refine (record_twins _).andThen fun _ => (discard_twins _).andThen fun found => ?_
      rcases found with _ | ⟨ticket, listening⟩ | orphan
      · exact .pure rfl
      · exact .pure rfl
      · exact putBack_twins _ _ rfl
    · refine (record_twins _).andThen fun _ => (discard_twins _).andThen fun _ => ?_
      exact (takeMail_twins _).bind fun _ _ _ => putBack_twins _ _ rfl
    · exact .pure rfl
    · exact (takeUp_twins kin pending _).andThen fun _ => .pure rfl

theorem request_twins (m : Outbound) (callbacks : List Program) (ticket : Nat) :
    Twins Eq (request setup inner m callbacks ticket) (request setup' inner' m callbacks ticket) := by
  have same : setup'.spawner = setup.spawner ∧ setup'.framing = setup.framing := by
    obtain ⟨-, -⟩ := kin
    exact ⟨rfl, rfl⟩
  unfold request
  rw [same.1, same.2]
  refine Twins.get.bind fun s t alike => ?_
  obtain ⟨-, -, -, -⟩ := alike
  dsimp only
  split
  · exact .pure rfl
  refine (issue_twins .request m).bind fun p q like => ?_
  have loaded := like.load (m.body.map .value)
  generalize p.load (m.body.map .value) = x, q.load (m.body.map .value) = y at loaded
  obtain @⟨q, like⟩ := loaded
  rcases x with ⟨p, fault | _⟩
  · exact putBack_twins p _ rfl
  have framed := like.frame setup.framing
  dsimp only at framed ⊢
  generalize p.frame setup.framing = x, q.frame setup.framing = y at framed
  obtain ⟨like⟩ := framed
  rcases x with ⟨p, fault | frame⟩
  · exact putBack_twins p _ rfl
  · dsimp only at like ⊢
    rw [like.takeScratch]
    exact expectReply_twins twins kin m _ frame

theorem callAsync_twins (m : Outbound) (callbacks : List Program) :
    Twins Eq (callAsync setup inner m callbacks) (callAsync setup' inner' m callbacks) := by
  refine openTicket_twins.andThen fun ticket => (record_twins _).andThen fun _ => ?_
  exact (request_twins twins kin m callbacks ticket).andThen fun result => (record_twins _).andThen fun _ => .pure rfl

/-! ### Handlers -/

/-- What runs handlers agrees with what runs others, on contexts that are the same. -/
def Paired (run run' : Context → EngineM Context) : Prop := ∀ c d, c.Like d → Twins Context.Like (run c) (run' d)

theorem perform_paired {onNext onNext' : Context → EngineM Context} (next : Paired onNext onNext') :
    ∀ handler, Paired (perform setup inner onNext handler) (perform setup' inner' onNext' handler)
  | .done, c, d, like => .pure like
  | .next rest, c, d, like => (next c d like).bind fun c d like => perform_paired next rest c d like
  | .abort rest, c, d, like => perform_paired next rest _ _ like.abort
  | .edit change rest, c, d, like => perform_paired next rest _ _ (like.edit change)
  | .setPeer peer rest, c, d, like => perform_paired next rest _ _ (like.setPeer peer)
  | .look rest, c, d, like => Twins.get.bind fun s t alike => by
    obtain ⟨packet, aborted, peer⟩ := like.view
    have load : t.load = s.load := by
      obtain ⟨-, -, -, -⟩ := alike
      rfl
    dsimp only
    rw [packet, aborted, peer, load]
    exact (record_twins _).andThen fun _ => perform_paired next (rest _) c d like
  | .respond content metadata rest, c, d, like =>
    (respond_twins twins kin like content metadata).andThen fun result => perform_paired next (rest result) c d like
  | .receive frame rest, c, d, like =>
    (twins.receive frame).andThen fun result => perform_paired next (rest result) c d like
  | .close rest, c, d, like => twins.close.andThen fun _ => perform_paired next rest c d like
  | .notify m rest, c, d, like =>
    (notify_twins twins kin m).andThen fun result => perform_paired next (rest result) c d like
  | .callAsync m callbacks rest, c, d, like =>
    (callAsync_twins twins kin m callbacks).andThen fun result => perform_paired next (rest result) c d like
  | .report event rest, c, d, like => (record_twins _).andThen fun _ => perform_paired next rest c d like
  | .reportCounts source rest, c, d, like =>
    (reportCounts_twins source).andThen fun _ => perform_paired next rest c d like

omit kin twins in
theorem within_paired {run run' : Context → EngineM Context} (paired : Paired run run') :
    Paired (within run) (within run') := by
  intro c d like
  refine (paired _ _ like.enter).bind fun c d like => ?_
  have depth : d.leave.depth = c.leave.depth := by
    obtain ⟨-⟩ := like
    rfl
  dsimp only
  rw [depth]
  split
  · exact release_twins like.leave
  · exact .pure like.leave

theorem runFrom_paired (handlers : List Program) :
    ∀ position, Paired (runFrom setup inner position handlers) (runFrom setup' inner' position handlers) := by
  induction handlers with
  | nil => exact fun _ _ _ like => .pure like
  | cons handler rest ih =>
    intro position c d like
    have due : d.isDue position = c.isDue position := by
      obtain ⟨like⟩ := like
      rfl
    unfold runFrom
    rw [due]
    split
    · refine (record_twins _).andThen fun _ => ?_
      have next := within_paired (ih (position + 1))
      exact (perform_paired twins kin next handler _ _ like.start).bind fun c d like => ih (position + 1) c d like
    · exact .pure like

theorem next_paired (chain : List Program) : Paired (next setup inner chain) (next setup' inner' chain) :=
  within_paired (runFrom_paired twins kin chain 0)

omit kin twins in
theorem drive_twins {entry entry' : Context → EngineM Context} (paired : Twins Context.Like (entry c) (entry' d)) :
    Twins Eq (drive entry c) (drive entry' d) :=
  paired.bind fun _ _ like => (release_twins like).bind fun c d _ => putContext_twins c d

/-- The callbacks of a request find no peer, told or not. -/
theorem deliver_twins (pending : Pending) (like : p.Like q) :
    Twins Eq (deliver setup inner pending p) (deliver setup' inner' pending q) := by
  have same : q.toPacket = p.toPacket := like
  unfold deliver
  rw [same]
  refine (record_twins _).andThen fun _ => takeContext_twins.bind fun c d ⟨own, other⟩ => ?_
  refine Twins.andThen (drive_twins ?_) fun _ => putParcel_twins _ _
  -- A context comes from the pool without a peer, which is what the callbacks are told.
  rw [perform_told (c := d.bind q false) (kin.filters _) other]
  exact perform_paired twins kin (next_paired twins kin pending.callbacks) _ _ _ (Context.like_bind own other like false)

omit kin twins in
theorem synthesize_twins (request : Packet) (fault : Fault) :
    Twins Parcel.Like (synthesize request fault) (synthesize request fault) :=
  (answer_twins request .empty).bind fun _ _ like => .pure (like.edit _)

/-! ### Frames that arrive -/

omit kin twins in
theorem filterData_twins (filters : List (Bytes → Filtered Bytes)) :
    ∀ data, Twins Eq (filterData filters data) (filterData filters data) := by
  induction filters with
  | nil => exact fun _ => .pure rfl
  | cons filter rest ih =>
    intro data
    refine (reportAll_twins _).andThen fun _ => ?_
    split
    · exact .pure rfl
    · exact .pure rfl
    · exact ih _

omit kin twins in
theorem filterPacket_twins (filters : List (Packet → Filtered Packet)) :
    ∀ p q, p.Like q → Twins Parcel.Likewise (filterPacket filters p) (filterPacket filters q) := by
  induction filters with
  | nil => exact fun _ _ like => .pure (.intro like)
  | cons filter rest ih =>
    intro p q like
    have same : q.toPacket = p.toPacket := like
    unfold filterPacket
    rw [same]
    refine (reportAll_twins _).andThen fun _ => ?_
    dsimp only
    split
    · exact ih _ _ (like.edit _)
    · exact .pure (.intro (like.edit _))

theorem acceptReply_twins (like : p.Like q) :
    Twins Eq (acceptReply setup inner p) (acceptReply setup' inner' q) := by
  have same : q.toPacket = p.toPacket := like
  unfold acceptReply
  rw [same]
  refine (takeSession_twins _).andThen fun found => ?_
  cases found with
  | none => exact (record_twins _).andThen fun _ => putParcel_twins p q
  | some entry =>
    refine (record_twins _).andThen fun _ => ?_
    rcases entry with ⟨ticket, _ | _⟩ | pending
    · exact putParcel_twins p q
    · refine .modify fun _ _ alike => ?_
      obtain ⟨packets, holders, replies, story⟩ := alike
      refine .intro packets holders ?_ story
      unfold opened at replies ⊢
      rw [List.map_append, List.map_append, replies]
      exact congrArg (fun packet => _ ++ [(ticket, packet)]) same
    · exact deliver_twins twins kin pending like

theorem intercept_twins (like : p.Like q) :
    Twins (Option.Rel Parcel.Like) (intercept setup inner p) (intercept setup' inner' q) := by
  have same : q.toPacket = p.toPacket := like
  have hook : setup'.hook = setup.hook := by
    obtain ⟨-, -⟩ := kin
    rfl
  unfold intercept
  rw [hook, same]
  cases setup.hook with
  | none => exact .pure (.some like)
  | replies =>
    dsimp only
    split
    · exact (acceptReply_twins twins kin like).andThen fun _ => .pure .none
    · exact .pure (.some like)
  | custom look =>
    refine (reportAll_twins _).andThen fun _ => ?_
    split
    · exact putBack_twins p q .none
    · exact .pure (.some (like.edit _))

/-! ### Dispatch -/

omit twins in
theorem weigh_twins : Twins Eq (weigh setup) (weigh setup') := by
  obtain ⟨-, -⟩ := kin
  unfold weigh
  dsimp only
  cases setup.overloaded with
  | none => exact .pure rfl
  | some overloaded =>
    refine Twins.get.bind fun s t alike => ?_
    obtain ⟨-, -, -, -⟩ := alike
    refine (record_twins _).andThen fun _ => ?_
    split
    · exact .pure rfl
    · refine Twins.andThen (.modify fun _ _ alike => ?_) fun _ => .pure rfl
      obtain ⟨packets, holders, replies, story⟩ := alike
      exact .intro packets holders replies story

/-- The handlers of an inbound packet find the peer of their connection, told or not. -/
theorem dispatch_twins (like : p.Like q) : Twins Eq (dispatch setup inner p) (dispatch setup' inner' q) := by
  have same : q.toPacket = p.toPacket := like
  have peer : setup'.peer = setup.peer := by
    obtain ⟨-, -⟩ := kin
    rfl
  have hears := kin.chains p.toPacket
  unfold dispatch
  rw [same, peer]
  rcases found : setup.router.resolve p.toPacket with fault | chain <;> rw [found] at hears
  · generalize setup'.router.resolve p.toPacket = found' at hears
    obtain _ | _ := hears
    exact putBack_twins p q rfl
  obtain ⟨chain', found', agree⟩ := next_told hears setup' inner'
  rw [found']
  refine (weigh_twins kin).andThen fun counted => ?_
  cases counted with
  | none => exact putBack_twins p q rfl
  | some counted =>
    refine (record_twins _).andThen fun _ => takeContext_twins.bind fun c d ⟨own, other⟩ => ?_
    refine Twins.andThen (drive_twins ?_) fun _ => .pure rfl
    -- The context is given the peer of the connection, which is the one that the handlers are told.
    rw [agree _ rfl]
    exact next_paired twins kin chain _ _ ((Context.like_bind own other like counted).setPeer setup.peer)

theorem welcome_twins (like : p.Like q) : Twins Eq (welcome setup inner p) (welcome setup' inner' q) := by
  have filters : setup'.packetFilters = setup.packetFilters := by
    obtain ⟨-, -⟩ := kin
    rfl
  unfold welcome
  rw [filters]
  refine (intercept_twins twins kin like).bind fun found found' shown => ?_
  cases shown with
  | none => exact .pure rfl
  | @some p q like =>
    have same : q.toPacket = p.toPacket := like
    dsimp only
    rw [same]
    refine (record_twins _).andThen fun _ => (filterPacket_twins _ p q like).bind fun x y passed => ?_
    obtain @⟨q, like⟩ := passed
    rcases x with ⟨p, fault | _ | _⟩
    · exact putBack_twins p q rfl
    · exact dispatch_twins twins kin like
    · exact putBack_twins p q rfl

theorem receiveWith_twins (data : Bytes) :
    Twins Eq (receiveWith setup inner data) (receiveWith setup' inner' data) := by
  have same : setup'.dataFilters = setup.dataFilters ∧ setup'.framing = setup.framing := by
    obtain ⟨-, -⟩ := kin
    exact ⟨rfl, rfl⟩
  unfold receiveWith
  rw [same.1, same.2]
  refine (filterData_twins _ data).andThen fun passed => ?_
  rcases passed with fault | _ | data
  · exact .pure rfl
  · exact .pure rfl
  · refine takeParcel_twins.bind fun p q like => ?_
    have read := like.unframe setup.framing data
    generalize p.unframe setup.framing data = x, q.unframe setup.framing data = y at read
    obtain @⟨q, like⟩ := read
    rcases x with ⟨p, fault | _⟩
    · exact putBack_twins p q rfl
    · exact welcome_twins twins kin like

/-! ### Closing -/

theorem endAll_twins : ∀ sessions, Twins Eq (endAll setup inner sessions) (endAll setup' inner' sessions)
  | [] => .pure rfl
  | (_, .waiting _ _) :: rest => endAll_twins rest
  | (_, .callback pending) :: rest => (synthesize_twins _ _).bind fun _ _ like =>
      (deliver_twins twins kin pending like).andThen fun _ => endAll_twins rest

theorem closeWith_twins : Twins Eq (closeWith setup inner) (closeWith setup' inner') := by
  have sweep : setup'.sweep = setup.sweep := by
    obtain ⟨-, -⟩ := kin
    rfl
  unfold closeWith
  rw [sweep]
  exact (record_twins _).andThen fun _ => drain_twins.andThen fun sessions => endAll_twins twins kin _

end

/-- At every depth, what comes back from within agrees. -/
theorem nested_twins (kin : setup.Kin setup') (depth : Nat) : (nested setup depth).Twins (nested setup' depth) := by
  induction depth with
  | zero => exact ⟨fun _ => .throw _, .throw _⟩
  | succ depth ih => exact ⟨receiveWith_twins ih kin, closeWith_twins ih kin⟩

/-! ### Calls and waits -/

theorem startCall_twins (m : Outbound) : Twins Eq (startCall m) (startCall m) := by
  refine openTicket_twins.andThen fun ticket => (record_twins _).andThen fun _ => ?_
  refine Twins.andThen (.modify fun _ _ alike => ?_) fun _ => .pure rfl
  obtain ⟨packets, holders, replies, story⟩ := alike
  exact .intro packets holders replies story

theorem takeCall_twins (ticket : Nat) : Twins Eq (takeCall ticket) (takeCall ticket) := .modifyGet fun _ _ alike => by
  obtain ⟨packets, holders, replies, story⟩ := alike
  exact ⟨rfl, .intro packets holders replies story⟩

theorem keepCall_twins (c : Call) : Twins Eq (keepCall c) (keepCall c) := .modify fun _ _ alike => by
  obtain ⟨packets, holders, replies, story⟩ := alike
  exact .intro packets holders replies story

theorem takeWait_twins (ticket : Nat) : Twins Eq (takeWait ticket) (takeWait ticket) := .modifyGet fun _ _ alike => by
  obtain ⟨packets, holders, replies, story⟩ := alike
  exact ⟨rfl, .intro packets holders replies story⟩

theorem keepWait_twins (w : Wait) : Twins Eq (keepWait w) (keepWait w) := .modify fun _ _ alike => by
  obtain ⟨packets, holders, replies, story⟩ := alike
  exact .intro packets holders replies story

theorem finish_twins (ticket : Nat) (result : Except Fault Bytes) :
    Twins Eq (finish ticket result) (finish ticket result) := (record_twins _).andThen fun _ => .pure rfl

theorem finishSession_twins (ticket : Nat) (session : UInt64) (result : Except Fault Bytes) :
    Twins Eq (finishSession ticket session result) (finishSession ticket session result) :=
  (finish_twins ticket result).andThen fun _ => (discard_twins session).andThen fun _ =>
    (takeMail_twins ticket).bind fun _ _ _ => .pure rfl

theorem awaitReply_twins (now : Nat) (c : Call) (session : UInt64) (deadline : Option (Nat × Duration)) :
    Twins Eq (awaitReply now c session deadline) (awaitReply now c session deadline) := by
  refine (takeMail_twins c.ticket).bind fun found found' like => ?_
  cases like with
  | @some p q like =>
    have carried : q.carried = p.carried := congrArg Packet.carried like
    dsimp only
    rw [carried]
    exact (putParcel_twins p q).andThen fun _ => finishSession_twins _ _ _
  | none =>
    refine Twins.get.bind fun s t alike => ?_
    obtain ⟨-, -, -, -⟩ := alike
    dsimp only
    split
    · exact finishSession_twins _ _ _
    · split
      · exact (record_twins _).andThen fun _ => finishSession_twins _ _ _
      · exact (keepCall_twins _).andThen fun _ => .pure rfl

theorem cancelCall_twins (ticket : Nat) : Twins Eq (cancelCall ticket) (cancelCall ticket) := by
  refine (takeCall_twins ticket).andThen fun found => ?_
  cases found with
  | none => exact .pure rfl
  | some c =>
    refine (record_twins _).andThen fun _ => ?_
    split
    · exact .pure rfl
    · exact (discard_twins _).andThen fun _ => (takeMail_twins ticket).bind fun _ _ _ => .pure rfl

theorem beginWait_twins (now : Nat) (w : Wait) : Twins Eq (beginWait now w) (beginWait now w) := by
  unfold beginWait
  cases w.deadline with
  | some deadline => exact .pure rfl
  | none => exact (record_twins _).andThen fun _ => .pure rfl

section

variable (twins : inner.Twins inner') (kin : setup.Kin setup')
include twins kin

theorem sendCall_twins (now : Nat) (c : Call) :
    Twins Eq (sendCall setup inner now c) (sendCall setup' inner' now c) := by
  refine (issue_twins .request c.message).bind fun p q like => ?_
  have loaded := like.load (c.message.body.map .value)
  generalize p.load (c.message.body.map .value) = x, q.load (c.message.body.map .value) = y at loaded
  obtain @⟨q, like⟩ := loaded
  rcases x with ⟨p, fault | _⟩
  · exact (putParcel_twins p q).andThen fun _ => finish_twins _ _
  have same : q.toPacket = p.toPacket := like
  dsimp only
  rw [same]
  refine (register_twins _ _).andThen fun answer => ?_
  cases answer with
  | refused => exact (putParcel_twins p q).andThen fun _ => finish_twins _ _
  | accepted =>
    refine (send_twins twins kin like).bind fun ⟨p, result⟩ _ sent => ?_
    obtain @⟨q, -⟩ := sent
    refine (putParcel_twins p q).andThen fun _ => ?_
    cases result with
    | error fault => exact (record_twins _).andThen fun _ => finishSession_twins _ _ _
    | ok => exact (record_twins _).andThen fun _ => awaitReply_twins _ _ _ _

theorem pollCall_twins (now ticket : Nat) :
    Twins Eq (pollCall setup inner now ticket) (pollCall setup' inner' now ticket) := by
  refine (takeCall_twins ticket).andThen fun found => ?_
  cases found with
  | none => exact .pure rfl
  | some c =>
    dsimp only
    split
    · exact sendCall_twins twins kin now c
    · exact awaitReply_twins _ _ _ _

theorem pollWait_twins (now ticket : Nat) :
    Twins Eq (pollWait setup inner now ticket) (pollWait setup' inner' now ticket) := by
  refine (takeWait_twins ticket).andThen fun found => ?_
  cases found with
  | none => exact .pure rfl
  | some w =>
    refine (beginWait_twins now w).andThen fun deadline => (takeMail_twins ticket).bind fun found found' like => ?_
    cases like with
    | some like => exact deliver_twins twins kin w.pending like
    | none =>
      refine Twins.get.bind fun s t alike => ?_
      obtain ⟨-, -, -, -⟩ := alike
      dsimp only
      split
      · exact (synthesize_twins _ _).bind fun _ _ like => deliver_twins twins kin w.pending like
      split
      · refine (record_twins _).andThen fun _ => (discard_twins _).andThen fun _ => ?_
        exact (synthesize_twins _ _).bind fun _ _ like => deliver_twins twins kin w.pending like
      · exact keepWait_twins _

end

/-- Whatever is done with two connections that are alike, it comes to the same, and they stay alike. -/
theorem act_twins (kin : setup.Kin setup') (depth : Nat) (a : Act) : Twins Eq (act setup depth a) (act setup' depth a) := by
  have twins := nested_twins kin depth
  cases a with
  | receive data => exact (receiveWith_twins twins kin data).map Outcome.done
  | notify m => exact (notify_twins twins kin m).map Outcome.done
  | callAsync m callbacks => exact (callAsync_twins twins kin m callbacks).map Outcome.done
  | startCall m => exact (startCall_twins m).map Outcome.ticket
  | pollCall now ticket => exact (pollCall_twins twins kin now ticket).map Outcome.polled
  | cancelCall ticket => exact (cancelCall_twins ticket).andThen fun _ => .pure rfl
  | pollWait now ticket => exact (pollWait_twins twins kin now ticket).andThen fun _ => .pure rfl
  | nextSession =>
    refine .modifyGet fun _ _ alike => ?_
    obtain ⟨packets, holders, replies, story⟩ := alike
    exact ⟨rfl, .intro packets holders replies story⟩
  | close => exact (closeWith_twins twins kin).andThen fun _ => .pure rfl

end Engine
end Switchboard
