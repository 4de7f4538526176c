import Switchboard.Proofs.Engine.Upkeep

/-! Every function that handlers and the far side can set going gives back what it takes, at every depth of
    work within work. What comes back from within is a hypothesis (`Inner.Steady`) until `nested_steady`
    discharges it. -/

namespace Switchboard

/-- What comes back to a connection from within its own work gives back what it takes. -/
structure Inner.Steady (stops : Halt → Prop) (quiet : Prop) (setup : Setup) (inner : Inner) : Prop where
  receive : ∀ data d, Engine.Keeps stops quiet (inner.receive data) d fun _ => d
  close : ∀ d, Engine.Keeps stops quiet inner.close d fun _ => d
  exhausted : ¬quiet → ∀ n drawn, Engine.numbers ≤ drawn → stops (.sessionInUse n drawn)
  calm : quiet → setup.Quiet

namespace Engine

variable {stops : Halt → Prop} {quiet : Prop} {setup : Setup} {inner : Inner} {s t : Engine} {d : Due}

/-! ### Writing -/

theorem reportAll_keeps : ∀ events : List Event, Keeps stops quiet (reportAll events) d fun _ => d
  | [] => .pure
  | e :: rest => (record_keeps (.event e)).bind fun _ => reportAll_keeps rest

theorem receiveFrame_keeps (steady : inner.Steady stops quiet setup) :
    ∀ frame, Keeps stops quiet (receiveFrame inner frame) d fun _ => d
  | .ok frame => steady.receive frame d
  | .error _ => .pure

theorem react_keeps (steady : inner.Steady stops quiet setup) :
    ∀ reactions, Keeps stops quiet (react inner reactions) d fun _ => d
  | [] => .pure
  | .close :: rest => (steady.close d).bind fun _ => react_keeps steady rest
  | .receive frame event :: rest => by
    refine (receiveFrame_keeps steady frame).bind fun result => ?_
    exact (record_keeps (.event (event result))).bind fun _ => react_keeps steady rest

theorem countFrame_keeps (frame : Bytes) : Keeps stops quiet (countFrame frame) d fun _ => d := by
  intro s orderly
  have counted : Steady quiet s d { s with writes := s.writes + 1 } d :=
    ⟨rfl, List.prefix_rfl, rfl, rfl, fun _ => rfl, orderly.congr rfl (Nat.le_refl _)⟩
  refine .of_eq rfl ?_
  dsimp only
  split
  · exact counted.trans ⟨rfl, List.prefix_rfl, rfl, rfl, fun _ => rfl, orderly.congr rfl (Nat.le_refl _)⟩
  · exact counted

theorem write_keeps (steady : inner.Steady stops quiet setup) (frame : Bytes) :
    Keeps stops quiet (write inner frame) d fun _ => d := by
  refine Keeps.get.bind fun s => ?_
  refine (countFrame_keeps frame).bind fun _ => ?_
  exact (react_keeps steady (s.line.reactions s.writes frame)).bind fun _ => .pure

theorem send_keeps (steady : inner.Steady stops quiet setup) (p : Parcel) :
    Keeps stops quiet (send setup inner p) d fun _ => d := by
  unfold send
  rcases p.frame setup.framing with ⟨q, fault | frame⟩
  · exact .pure
  · exact (write_keeps steady frame).bind fun _ => .pure

theorem sendAway_keeps (steady : inner.Steady stops quiet setup) (p : Parcel) (content : Except Fault Content) :
    Keeps stops quiet (sendAway setup inner p content) d.parcel fun _ => d := by
  unfold sendAway
  rcases p.load content with ⟨q, fault | _⟩
  · exact (putParcel_keeps q).bind fun _ => .pure
  · refine (send_keeps steady q).bind fun ⟨q', result⟩ => ?_
    exact (putParcel_keeps q').bind fun _ => .pure

theorem respond_keeps (steady : inner.Steady stops quiet setup) (c : Context) (content : Except Fault Content)
    (metadata : Metadata) : Keeps stops quiet (respond setup inner c content metadata) d fun _ => d := by
  unfold respond
  rcases c.mayRespond with fault | _
  · exact .pure
  · exact answer_keeps.bind fun p => sendAway_keeps steady p content

theorem notify_keeps (steady : inner.Steady stops quiet setup) (m : Outbound) :
    Keeps stops quiet (notify setup inner m) d fun _ => d :=
  issue_keeps.bind fun p => sendAway_keeps steady p (m.body.map .value)

/-! ### Asynchronous calls -/

/-- A number that was just drawn is later than those in the table. -/
structure Fresh (s : Engine) (n : UInt64) : Prop where
  number : n = UInt64.ofNat s.issuer.drawn
  positive : 1 ≤ s.issuer.drawn
  older : ∀ e ∈ s.table.entries, ∃ k, 1 ≤ k ∧ k < s.issuer.drawn ∧ e.1 = UInt64.ofNat k

theorem issue_ends (orderly : s.Orderly quiet) (command : Command) (m : Outbound) :
    Ends stops (issue command m) s fun p t =>
      Fresh t p.session ∧ t = { s with issuer := { s.issuer.get.2 with drawn := s.issuer.drawn + 1 } } := by
  obtain ⟨p, issued⟩ : ∃ p, issue command m s =
      .ok (p, { s with issuer := { s.issuer.get.2 with drawn := s.issuer.drawn + 1 } }) := ⟨_, rfl⟩
  refine .of_eq issued ⟨⟨(issue_eq_ok issued).2.1, ?_, ?_⟩, rfl⟩
  · exact Nat.succ_pos _
  · intro e he
    obtain ⟨k, first, last, number⟩ := orderly.drawn e he
    exact ⟨k, first, Nat.lt_succ_of_le last, number⟩

/-- A fresh number is in the table only when the numbers are used up. -/
theorem Fresh.free {n : UInt64} (fresh : Fresh s n) (few : s.issuer.drawn ≤ numbers) : s.table.find n = none := by
  refine SessionTable.find_eq_none_iff.mpr fun e he number => ?_
  obtain ⟨k, first, earlier, heq⟩ := fresh.older e he
  have same := ofNat_inj first (by omega) fresh.positive few (heq.symm.trans (number.trans fresh.number))
  omega

/-- A request under a fresh number is refused by a closed table, and else registered. -/
theorem Fresh.register (exhausted : ∀ n drawn, numbers ≤ drawn → stops (.sessionInUse n drawn)) (loud : ¬quiet)
    (orderly : s.Orderly quiet) {request : Packet} (fresh : Fresh s request.session) (entry : Session) :
    Ends stops (register entry request) s fun r t =>
      r = .refused ∧ t = s ∨ r = .accepted ∧ t = s.enroll entry request ∧ t.Orderly quiet := by
  cases closed : s.table.closed with
  | true => exact .of_eq (register_of_closed closed) (.inl ⟨rfl, rfl⟩)
  | false =>
    by_cases free : s.table.find request.session = none
    · refine .of_eq (register_of_open closed free) (.inr ⟨rfl, rfl, orderly.keyed.insert free, ?_, fun h => absurd h loud⟩)
      intro e he
      rcases List.mem_append.mp he with he | he
      · exact orderly.drawn e he
      · rw [List.mem_singleton.mp he]
        exact ⟨s.issuer.drawn, fresh.positive, Nat.le_refl _, fresh.number⟩
    · -- A fresh number is taken only when the numbers are used up, and that stop is allowed.
      refine .of_stop (register_of_taken closed free) (exhausted _ _ ?_)
      by_contra few
      exact free (fresh.free (by omega))

/-- Where packets are not counted it does not matter how many are due. -/
theorem Keeps.loud {α : Type} {m : EngineM α} {e : Due} {e' d' : α → Due} (loud : ¬quiet)
    (keeps : Keeps stops quiet m e e') (before : e = { d with packets := e.packets })
    (after : ∀ a, e' a = { d' a with packets := (e' a).packets }) : Keeps stops quiet m d d' :=
  fun s orderly => (keeps s orderly).mono fun a t steady =>
    { calls := steady.calls
      waits := steady.waits
      load := by
        have := steady.load
        rw [before, after a] at this
        exact this
      contexts := by
        have := steady.contexts
        rw [before, after a] at this
        exact this
      packets := fun hushed => absurd hushed loud
      orderly := steady.orderly }

section

variable (loud : ¬quiet)
include loud

/-- What changes the table or the replies of a connection and takes nothing else. -/
theorem Steady.of_loud (calls : t.calls = s.calls) (waits : s.waits <+: t.waits) (load : t.load = s.load)
    (contexts : t.contexts = s.contexts) (orderly : t.Orderly quiet) : Steady quiet s d t d where
  calls := calls
  waits := waits
  load := congrArg (· + d.load) load
  contexts := by rw [contexts]
  packets hushed := absurd hushed loud
  orderly := orderly

theorem putParcel_keeps_of_loud (p : Parcel) : Keeps stops quiet (putParcel p) d fun _ => d :=
  Keeps.loud loud (putParcel_keeps (d := d) p) rfl fun _ => rfl

theorem discard_keeps (n : UInt64) : Keeps stops quiet (discard n) d fun _ => d := fun _ orderly =>
  .of_eq rfl (.of_loud loud rfl List.prefix_rfl rfl rfl (orderly.sublist List.filter_sublist rfl))

theorem takeMail_keeps (n : Nat) : Keeps stops quiet (takeMail n) d fun _ => d := fun _ orderly =>
  .of_eq rfl (.of_loud loud rfl List.prefix_rfl rfl rfl (orderly.congr rfl (Nat.le_refl _)))

theorem takeUp_keeps (pending : Pending) (limit : Duration) :
    Keeps stops quiet (takeUp setup pending limit) d fun _ => d := by
  unfold takeUp
  cases setup.spawner with
  | drop =>
    refine fun s orderly => .of_eq (t := s.deafen pending.ticket) rfl
      (.of_loud loud rfl List.prefix_rfl rfl rfl ⟨?_, ?_, fun h => absurd h loud⟩)
    · have same : (s.deafen pending.ticket).table.entries.map Prod.fst = s.table.entries.map Prod.fst := by
        simp [deafen]
      unfold SessionTable.Keyed
      rw [same]
      exact orderly.keyed
    · intro e he
      obtain ⟨e', he', rfl⟩ := List.mem_map.mp he
      exact orderly.drawn e' he'
  | ambient | keep =>
    exact fun s orderly => .of_eq (t := { s with waits := s.waits ++ [{ pending, limit }] }) rfl
      (.of_loud loud rfl (List.prefix_append _ _) rfl rfl (orderly.congr rfl (Nat.le_refl _)))

theorem expectReply_ends (steady : inner.Steady stops quiet setup) (m : Outbound) (pending : Pending)
    (frame : Bytes) (orderly : s.Orderly quiet) (fresh : Fresh s pending.request.session) :
    Ends stops (expectReply setup inner m pending frame) s fun _ t => Steady quiet s d t d := by
  unfold expectReply
  refine (fresh.register (steady.exhausted loud) loud orderly _).bind fun r t registered => ?_
  rcases registered with ⟨rfl, rfl⟩ | ⟨rfl, rfl, enrolled⟩
  · exact ((putParcel_keeps_of_loud loud _).bind fun _ => .pure) t orderly
  have placed : Steady quiet s d (s.enroll _ pending.request.toPacket) d :=
    .of_loud loud rfl List.prefix_rfl rfl rfl enrolled
  refine Ends.mono (Keeps.bind (write_keeps steady frame) (fun result => ?_) _ enrolled) fun _ _ => placed.trans
  -- The writing failed or not, and the reply is met by callbacks or by someone who waits.
  rcases result with fault | _ <;> cases m.timeout
  · refine (record_keeps _).bind fun _ => (discard_keeps loud _).bind fun found => ?_
    rcases found with _ | ⟨ticket, listening⟩ | orphan
    · exact .pure
    · exact .pure
    · exact (putParcel_keeps_of_loud loud _).bind fun _ => .pure
  · refine (record_keeps _).bind fun _ => (discard_keeps loud _).bind fun _ => ?_
    exact (takeMail_keeps loud _).bind fun _ => (putParcel_keeps_of_loud loud _).bind fun _ => .pure
  · exact .pure
  · exact (takeUp_keeps loud _ _).bind fun _ => .pure

theorem request_keeps (steady : inner.Steady stops quiet setup) (m : Outbound) (callbacks : List Program)
    (ticket : Nat) : Keeps stops quiet (request setup inner m callbacks ticket) d fun _ => d := by
  refine Keeps.get.bind fun s₀ => ?_
  dsimp only
  split
  · exact .pure
  intro s orderly
  refine (issue_ends orderly .request m).bind fun p t ⟨fresh, issued⟩ => ?_
  -- A request is kept until its reply, so its packet is not due: this is why callers are not quiet.
  have taken : Steady quiet s d t d := issued ▸
    .of_loud loud rfl List.prefix_rfl rfl rfl (orderly.congr rfl (Nat.le_succ _))
  refine Ends.mono ?_ fun _ _ => taken.trans
  rcases hload : p.load (m.body.map .value) with ⟨q, fault | _⟩
  · exact ((putParcel_keeps_of_loud loud q).bind fun _ => .pure) t taken.orderly
  have hpacket := Parcel.frame_toPacket q setup.framing
  rcases hframe : q.frame setup.framing with ⟨q', fault | frame⟩ <;> dsimp only <;> rw [hframe]
  · exact ((putParcel_keeps_of_loud loud q').bind fun _ => .pure) t taken.orderly
  · rw [hframe] at hpacket
    refine expectReply_ends loud steady m _ frame taken.orderly ?_
    have same : q'.takeScratch.session = p.session :=
      (congrArg Packet.session hpacket).trans (Parcel.load_eq_ok hload).2
    exact same ▸ fresh

theorem callAsync_keeps (steady : inner.Steady stops quiet setup) (m : Outbound) (callbacks : List Program) :
    Keeps stops quiet (callAsync setup inner m callbacks) d fun _ => d := by
  have opened : Keeps stops quiet openTicket d fun _ => d := fun s orderly =>
    .of_eq (t := { s with tickets := s.tickets + 1 }) rfl
      (.of_loud loud rfl List.prefix_rfl rfl rfl (orderly.congr rfl (Nat.le_refl _)))
  refine opened.bind fun ticket => (record_keeps _).bind fun _ => ?_
  exact (request_keeps loud steady m callbacks ticket).bind fun result => (record_keeps _).bind fun _ => .pure

end

/-! ### Handlers -/

/-- What runs handlers on a context keeps what comes with the context, unless it gives it back. -/
def Holds (stops : Halt → Prop) (quiet : Prop) (run : Context → EngineM Context) : Prop :=
  ∀ (d : Due) (c : Context), Keeps stops quiet (run c) (d.holding c) fun c' => d.holding c'

theorem perform_holds (steady : inner.Steady stops quiet setup) {onNext : Context → EngineM Context}
    (holds : Holds stops quiet onNext) :
    ∀ handler : Program, (quiet → handler.Quiet) → Holds stops quiet (perform setup inner onNext handler)
  | .done, _, _, _ => .pure_context
  | .next rest, calm, d, c => (holds d c).bind fun c' => perform_holds steady holds rest calm d c'
  | .abort rest, calm, d, c => perform_holds steady holds rest calm d c.abort
  | .edit change rest, calm, d, c => perform_holds steady holds rest calm d (c.edit change)
  | .setPeer peer rest, calm, d, c => perform_holds steady holds rest calm d (c.setPeer peer)
  | .look rest, calm, d, c => Keeps.get.bind fun _ =>
      (record_keeps _).bind fun _ => perform_holds steady holds (rest _) (fun h => calm h _) d c
  | .respond content metadata rest, calm, d, c =>
    (respond_keeps steady c content metadata).bind fun result =>
      perform_holds steady holds (rest result) (fun h => calm h result) d c
  | .receive frame rest, calm, d, c => (steady.receive frame _).bind fun result =>
      perform_holds steady holds (rest result) (fun h => calm h result) d c
  | .close rest, calm, d, c => (steady.close _).bind fun _ => perform_holds steady holds rest calm d c
  | .notify m rest, calm, d, c => (notify_keeps steady m).bind fun result =>
      perform_holds steady holds (rest result) (fun h => calm h result) d c
  | .callAsync m callbacks rest, calm, d, c => (callAsync_keeps (fun h => calm h) steady m callbacks).bind fun result =>
      perform_holds steady holds (rest result) (fun h => (calm h).elim) d c
  | .report _ rest, calm, d, c => (record_keeps _).bind fun _ => perform_holds steady holds rest calm d c
  | .reportCounts _ rest, calm, d, c => Keeps.get.bind fun _ =>
      (record_keeps _).bind fun _ => perform_holds steady holds rest calm d c

theorem within_holds {run : Context → EngineM Context} (holds : Holds stops quiet run) :
    Holds stops quiet (within run) := by
  intro d c
  refine (holds d c.enter).bind fun c' => ?_
  dsimp only
  split
  · exact release_keeps_holding c'.leave
  · exact .pure_context

theorem runFrom_holds (steady : inner.Steady stops quiet setup) (handlers : List Program) :
    (∀ handler ∈ handlers, quiet → handler.Quiet) →
      ∀ position, Holds stops quiet (runFrom setup inner position handlers) := by
  induction handlers with
  | nil => exact fun _ _ _ _ => .pure_context
  | cons handler rest ih =>
    intro calm position d c
    have later := ih (fun h mem => calm h (List.mem_cons_of_mem handler mem)) (position + 1)
    unfold runFrom
    split
    · refine (record_keeps _).bind fun _ => ?_
      -- A handler goes on with the rest of the chain, and what it did not go on with is run after it.
      have handled := perform_holds steady (within_holds later) handler (calm handler List.mem_cons_self)
      exact (handled d c.start).bind fun c' => later d c'
    · exact .pure_context

theorem next_holds (steady : inner.Steady stops quiet setup) {chain : List Program}
    (calm : ∀ handler ∈ chain, quiet → handler.Quiet) : Holds stops quiet (next setup inner chain) :=
  within_holds (runFrom_holds steady chain calm 0)

/-! ### Callbacks -/

theorem drive_keeps {entry : Context → EngineM Context} (holds : Holds stops quiet entry) (c : Context) :
    Keeps stops quiet (drive entry c) (d.context.holding c) fun _ => d :=
  (holds d.context c).bind fun c' => (release_keeps c').bind fun c'' => putContext_keeps c''

/-- A context that was given a packet holds it. -/
theorem holding_bind (c : Context) (p : Parcel) (counted : Bool) :
    d.context.holding (c.bind p counted) =
      { d.parcel.context with load := d.load + if counted then 1 else 0 } := rfl

theorem deliver_keeps (steady : inner.Steady stops quiet setup) {pending : Pending} (calm : quiet → pending.Quiet)
    (p : Parcel) : Keeps stops quiet (deliver setup inner pending p) d.parcel.parcel fun _ => d := by
  refine (record_keeps _).bind fun _ => takeContext_keeps.bind fun c => ?_
  have chain := next_holds steady fun handler mem h => calm h handler mem
  have run := perform_holds steady chain (setup.responseFilter pending.request.toPacket) fun h => (steady.calm h).filter _
  have driven := drive_keeps (d := d.parcel) run (c.bind p false)
  rw [holding_bind] at driven
  simp only [Bool.false_eq_true, if_false, Int.add_zero] at driven
  exact driven.bind fun _ => putParcel_keeps pending.request

theorem synthesize_keeps (request : Packet) (fault : Fault) :
    Keeps stops quiet (synthesize request fault) d fun _ => d.parcel :=
  answer_keeps.bind fun _ => .pure

/-! ### Frames that arrive -/

theorem filterData_keeps (filters : List (Bytes → Filtered Bytes)) :
    ∀ data, Keeps stops quiet (filterData filters data) d fun _ => d := by
  induction filters with
  | nil => exact fun _ => .pure
  | cons filter rest ih =>
    intro data
    refine (reportAll_keeps _).bind fun _ => ?_
    rcases (filter data).verdict with fault | verdict
    · exact .pure
    · cases verdict with
      | pass => exact ih _
      | stop => exact .pure

theorem filterPacket_keeps (filters : List (Packet → Filtered Packet)) :
    ∀ p, Keeps stops quiet (filterPacket filters p) d fun _ => d := by
  induction filters with
  | nil => exact fun _ => .pure
  | cons filter rest ih =>
    intro p
    refine (reportAll_keeps _).bind fun _ => ?_
    rcases (filter p.toPacket).verdict with fault | verdict
    · exact .pure
    · cases verdict with
      | pass => exact ih _
      | stop => exact .pure

theorem length_pledges_erase {n : UInt64} {entry : Session} (keyed : s.table.Keyed)
    (found : s.table.find n = some entry) :
    (pledges s.table.entries).length = entry.pending?.toList.length + (pledges (s.table.erase n).entries).length := by
  have counted : (pledges s.table.entries).length = (pledges ((n, entry) :: (s.table.erase n).entries)).length :=
    ((keyed.perm_erase found).filterMap _).length_eq
  rw [counted]
  cases entry with
  | waiting ticket listening => simp [pledges, Session.pending?]
  | callback pending =>
    simp [pledges, Session.pending?]
    omega

/-- A session that is taken out leaves the packet of its request in hand, if it held one. -/
theorem steady_erase (orderly : s.Orderly quiet) {n : UInt64} {entry : Session}
    (found : s.table.find n = some entry) : Steady quiet s d { s with table := s.table.erase n }
      { d with packets := d.packets + entry.pending?.toList.length } where
  calls := rfl
  waits := List.prefix_rfl
  load := rfl
  contexts := rfl
  packets _ := by
    unfold afield
    dsimp only
    rw [length_pledges_erase orderly.keyed found]
    omega
  orderly := orderly.sublist List.filter_sublist rfl

theorem steady_mail (orderly : s.Orderly quiet) (ticket : Nat) (p : Parcel) :
    Steady quiet s d.parcel { s with mail := s.mail ++ [(ticket, p)] } d where
  calls := rfl
  waits := List.prefix_rfl
  load := rfl
  contexts := rfl
  packets _ := by
    unfold afield
    dsimp only
    rw [List.length_append, List.length_singleton]
    simp only [Due.parcel]
    omega
  orderly := orderly.congr rfl (Nat.le_refl _)

/-- The packet of a reply goes to whoever it is for, or back to the pool. -/
theorem acceptReply_keeps (steady : inner.Steady stops quiet setup) (p : Parcel) :
    Keeps stops quiet (acceptReply setup inner p) d.parcel fun _ => d := by
  intro s orderly
  unfold acceptReply
  cases found : s.table.find p.session with
  | none =>
    have same := SessionTable.erase_of_find found
    refine .step (takeSession_eq_ok.mpr ⟨found, by rw [same]⟩) ?_
    exact ((record_keeps _).bind fun _ => putParcel_keeps p) s orderly
  | some entry =>
    refine .step (takeSession_eq_ok.mpr ⟨found, rfl⟩) ?_
    -- The packet of a request that the table held is in hand now, and due beside the reply.
    have taken := steady_erase (d := d.parcel) orderly found
    refine Ends.bind (record_keeps (d := { d.parcel with
      packets := d.parcel.packets + entry.pending?.toList.length }) _ _ taken.orderly) fun _ t noted => ?_
    refine Ends.mono ?_ fun _ _ => (taken.trans noted).trans
    cases entry with
    | callback pending =>
      have calm : quiet → pending.Quiet := fun h =>
        orderly.calm h pending (mem_pledges.mpr ⟨_, SessionTable.mem_of_find found⟩)
      exact deliver_keeps steady calm p t noted.orderly
    | waiting ticket listening =>
      have same : { d.parcel with packets := d.parcel.packets + (0 : Nat) } = d.parcel := by simp
      change Ends _ _ _ fun _ u => Steady quiet t { d.parcel with packets := d.parcel.packets + (0 : Nat) } u d
      rw [same]
      cases listening with
      | true => exact .of_eq rfl (steady_mail noted.orderly ticket p)
      | false => exact putParcel_keeps p t noted.orderly

theorem intercept_keeps (steady : inner.Steady stops quiet setup) (p : Parcel) :
    Keeps stops quiet (intercept setup inner p) d.parcel fun kept => if kept.isSome then d.parcel else d := by
  unfold intercept
  cases setup.hook with
  | none => exact fun _ orderly => .of_eq rfl (.refl orderly _)
  | replies =>
    dsimp only
    split
    · exact (acceptReply_keeps steady p).bind fun _ _ orderly => .of_eq rfl (.refl orderly _)
    · exact fun _ orderly => .of_eq rfl (.refl orderly _)
  | custom look =>
    refine (reportAll_keeps _).bind fun _ => ?_
    rcases (look p.toPacket).packet with _ | q
    · exact (putParcel_keeps p).bind fun _ _ orderly => .of_eq rfl (.refl orderly _)
    · exact fun _ orderly => .of_eq rfl (.refl orderly _)

theorem weigh_of_none (unlimited : setup.overloaded = none) : weigh setup s = .ok (some false, s) := by
  unfold weigh
  rw [unlimited]
  rfl

theorem weigh_of_some {overloaded : Int → Bool} (limited : setup.overloaded = some overloaded) :
    weigh setup s = .ok (if overloaded (s.load + 1) then none else some true,
      { s with
        load := if overloaded (s.load + 1) then s.load else s.load + 1
        journal := .weighed (s.load + 1) (overloaded (s.load + 1)) :: s.journal }) := by
  unfold weigh
  rw [limited]
  dsimp only
  rw [bind_of_ok (get_eq_ok.mpr ⟨rfl, rfl⟩), bind_of_ok ((record_eq_ok (x := ())).mpr rfl)]
  cases heavy : overloaded (s.load + 1) <;> rfl

/-- A packet that counts towards the load is due to be taken off it. -/
theorem weigh_keeps : Keeps stops quiet (weigh setup) d fun counted =>
    { d with load := d.load + if counted = some true then 1 else 0 } := by
  intro s orderly
  cases limit : setup.overloaded with
  | none => exact .of_eq (weigh_of_none limit) (by simpa using .refl orderly d)
  | some overloaded =>
    refine .of_eq (weigh_of_some limit)
      { calls := rfl
        waits := List.prefix_rfl
        load := ?_
        contexts := rfl
        packets := fun _ => rfl
        orderly := orderly.congr rfl (Nat.le_refl _) }
    cases heavy : overloaded (s.load + 1) <;> simp
    omega

theorem dispatch_keeps (steady : inner.Steady stops quiet setup) (p : Parcel) :
    Keeps stops quiet (dispatch setup inner p) d.parcel fun _ => d := by
  unfold dispatch
  rcases resolved : setup.router.resolve p.toPacket with fault | chain
  · exact (putParcel_keeps p).bind fun _ => .pure
  refine weigh_keeps.bind fun weight => ?_
  rcases weight with _ | counted
  · have same : { d.parcel with load := d.parcel.load + 0 } = d.parcel := by simp
    change Keeps _ _ _ { d.parcel with load := d.parcel.load + 0 } _
    rw [same]
    exact (putParcel_keeps p).bind fun _ => .pure
  · refine (record_keeps _).bind fun _ => takeContext_keeps.bind fun c => ?_
    have holds := next_holds steady fun handler mem h => (steady.calm h).router resolved handler mem
    have driven := drive_keeps (d := d) holds ((c.bind p counted).setPeer setup.peer)
    have weighed : (d.context.holding ((c.bind p counted).setPeer setup.peer)) =
        { d.parcel.context with load := d.load + if some counted = some true then 1 else 0 } := by
      cases counted <;> rfl
    rw [weighed] at driven
    exact driven.bind fun _ => .pure

theorem welcome_keeps (steady : inner.Steady stops quiet setup) (p : Parcel) :
    Keeps stops quiet (welcome setup inner p) d.parcel fun _ => d := by
  refine (intercept_keeps steady p).bind fun kept => ?_
  rcases kept with _ | q
  · exact .pure
  refine (record_keeps _).bind fun _ => (filterPacket_keeps _ q).bind fun ⟨q', verdict⟩ => ?_
  rcases verdict with fault | verdict
  · exact (putParcel_keeps q').bind fun _ => .pure
  · cases verdict with
    | pass => exact dispatch_keeps steady q'
    | stop => exact (putParcel_keeps q').bind fun _ => .pure

theorem receiveWith_keeps (steady : inner.Steady stops quiet setup) (data : Bytes) :
    Keeps stops quiet (receiveWith setup inner data) d fun _ => d := by
  refine (filterData_keeps _ data).bind fun filtered => ?_
  rcases filtered with fault | _ | data'
  · exact .pure
  · exact .pure
  refine takeParcel_keeps.bind fun p => ?_
  rcases p.unframe setup.framing data' with ⟨q, fault | _⟩
  · exact (putParcel_keeps q).bind fun _ => .pure
  · exact welcome_keeps steady q

/-! ### Closing -/

theorem endAll_keeps (steady : inner.Steady stops quiet setup) (sessions : List (UInt64 × Session)) :
    (quiet → ∀ pending ∈ pledges sessions, pending.Quiet) → Keeps stops quiet (endAll setup inner sessions)
      { d with packets := d.packets + (pledges sessions).length } fun _ => d := by
  induction sessions with
  | nil =>
    intro _
    have same : { d with packets := d.packets + (0 : Nat) } = d := by simp
    change Keeps _ _ _ { d with packets := d.packets + (0 : Nat) } _
    rw [same]
    exact .pure
  | cons e rest ih =>
    obtain ⟨n, entry⟩ := e
    cases entry with
    | waiting ticket listening => exact fun calm => ih calm
    | callback pending =>
      intro calm
      have rest_calm := ih fun h p mem => calm h p (List.mem_cons_of_mem pending mem)
      have due : { d with packets := d.packets + (pledges ((n, .callback pending) :: rest)).length } =
          Due.parcel { d with packets := d.packets + (pledges rest).length } := by
        change _ = { d with packets := d.packets + (pledges rest).length + 1 }
        have : (pledges ((n, .callback pending) :: rest)).length = (pledges rest).length + 1 := rfl
        rw [this]
        congr 1
        omega
      rw [due]
      refine (synthesize_keeps _ _).bind fun p => ?_
      exact (deliver_keeps steady (fun h => calm h pending List.mem_cons_self) p).bind fun _ => rest_calm

theorem closeWith_keeps (steady : inner.Steady stops quiet setup) :
    Keeps stops quiet (closeWith setup inner) d fun _ => d := by
  refine (record_keeps _).bind fun _ s orderly => ?_
  refine .step (t := { s with table := { entries := [], closed := true } }) rfl ?_
  have swept := setup.sweep_perm s.table.entries
  -- Draining moves what the table held into what is due, and ending the sessions gives it back.
  have drained : Steady quiet s d { s with table := { entries := [], closed := true } }
      { d with packets := d.packets + (pledges (setup.sweep s.table.entries)).length } :=
    { calls := rfl
      waits := List.prefix_rfl
      load := rfl
      contexts := rfl
      packets := fun _ => by
        have same : (pledges (setup.sweep s.table.entries)).length = (pledges s.table.entries).length :=
          (swept.filterMap _).length_eq
        rw [same]
        unfold afield
        simp only [pledges, List.filterMap_nil, List.length_nil]
        omega
      orderly := ⟨List.nodup_nil, fun e he => absurd he List.not_mem_nil, fun _ p mem => absurd mem List.not_mem_nil⟩ }
  refine Ends.mono (endAll_keeps steady _ (fun h p mem => ?_) _ drained.orderly) fun _ _ => drained.trans
  exact orderly.calm h p ((swept.filterMap _).mem_iff.mp mem)

/-! ### Work within work -/

theorem nested_steady {setup : Setup} (calm : quiet → setup.Quiet) (deep : stops .tooDeep)
    (exhausted : ¬quiet → ∀ n drawn, numbers ≤ drawn → stops (.sessionInUse n drawn)) (depth : Nat) :
    (nested setup depth).Steady stops quiet setup := by
  induction depth with
  | zero => exact ⟨fun _ _ _ _ => .of_stop rfl deep, fun _ _ _ => .of_stop rfl deep, exhausted, calm⟩
  | succ depth ih =>
    exact ⟨fun data _ => receiveWith_keeps ih data, fun _ => closeWith_keeps ih, exhausted, calm⟩

end Engine
end Switchboard
