import Switchboard.Proofs.Chains.Beats
import Switchboard.Proofs.Engine.Steady

/-! Work on a connection beat by beat. Whatever handlers and the far side set going ends every chain that it begins, and
    a context ends its own chain when it gives its packet back. What comes back from within is a hypothesis
    (`Inner.Round`) until `nested_round` discharges it at every depth. -/

namespace Switchboard
namespace Engine

variable {α β : Type} {setup : Setup} {s t : Engine} {K : List Chain}

/-- Work ends the chains that it begins, and no others. -/
def Rounds (setup : Setup) (m : EngineM α) : Prop := ∀ s a t, m s = .ok (a, t) → ∀ K, Beats setup s K t K

namespace Rounds

theorem pure {a : α} : Rounds setup (Pure.pure a) := by
  intro s b t h K
  obtain ⟨-, rfl⟩ := pure_eq_ok.mp h
  exact .refl

theorem get : Rounds setup get := by
  intro s a t h K
  obtain ⟨-, rfl⟩ := get_eq_ok.mp h
  exact .refl

/-- A change that leaves the journal and the load alone. -/
theorem modifyGet {f : Engine → α × Engine} (journal : ∀ s, (f s).2.journal = s.journal)
    (load : ∀ s, (f s).2.load = s.load) : Rounds setup (modifyGet f) := by
  intro s a t h K
  obtain ⟨-, rfl⟩ := Prod.mk.inj (modifyGet_eq_ok.mp h)
  exact .single (.still (journal s) (load s))

theorem modify {f : Engine → Engine} (journal : ∀ s, (f s).journal = s.journal) (load : ∀ s, (f s).load = s.load) :
    Rounds setup (modify f) := modifyGet journal load

theorem bind {m : EngineM α} {f : α → EngineM β} (first : Rounds setup m) (rest : ∀ a, Rounds setup (f a)) :
    Rounds setup (m >>= f) := by
  intro s b u h K
  obtain ⟨a, t, hm, h⟩ := bind_eq_ok.mp h
  exact (first s a t hm K).trans (rest a t b u h K)

theorem map {m : EngineM α} {f : α → β} (first : Rounds setup m) : Rounds setup (f <$> m) := by
  intro s b t h K
  obtain ⟨a, hm, -⟩ := map_eq_ok.mp h
  exact first s a t hm K

end Rounds

end Engine

/-- What comes back to a connection from within its own work comes back to some depth, and ends the chains that it
    begins. -/
structure Inner.Round (setup : Setup) (inner : Inner) : Prop where
  nested : ∃ depth, inner = Engine.nested setup depth
  receive : ∀ data, Engine.Rounds setup (inner.receive data)
  close : Engine.Rounds setup inner.close

namespace Engine

variable {α : Type} {setup : Setup} {inner : Inner} {s t : Engine} {K : List Chain}

/-! ### Small steps -/

theorem record_rounds {e : Entry} (bland : e.Bland) : Rounds setup (record e) := by
  intro s x t h K
  obtain rfl := record_eq_ok.mp h
  exact .single (.note bland)

theorem takeParcel_rounds : Rounds setup takeParcel := .modifyGet (fun _ => rfl) fun _ => rfl

theorem putParcel_rounds (p : Parcel) : Rounds setup (putParcel p) := .modify (fun _ => rfl) fun _ => rfl

theorem answer_rounds {request : Packet} {metadata : Metadata} : Rounds setup (answer request metadata) :=
  .modifyGet (fun _ => rfl) fun _ => rfl

theorem issue_rounds {command : Command} {m : Outbound} : Rounds setup (issue command m) :=
  .modifyGet (fun _ => rfl) fun _ => rfl

theorem takeContext_rounds : Rounds setup takeContext := .modifyGet (fun _ => rfl) fun _ => rfl

theorem putContext_rounds (c : Context) : Rounds setup (putContext c) := .modify (fun _ => rfl) fun _ => rfl

theorem openTicket_rounds : Rounds setup openTicket := .modifyGet (fun _ => rfl) fun _ => rfl

theorem takeMail_rounds (ticket : Nat) : Rounds setup (takeMail ticket) := .modifyGet (fun _ => rfl) fun _ => rfl

theorem takeSession_rounds (n : UInt64) : Rounds setup (takeSession n) := .modifyGet (fun _ => rfl) fun _ => rfl

theorem discard_rounds (n : UInt64) : Rounds setup (discard n) := by
  intro s found t h K
  have erased : Beats setup s K { s with table := s.table.erase n } K := .single (.still rfl rfl)
  obtain ⟨-, rfl⟩ := discard_eq_ok.mp h
  unfold strike
  split
  · exact erased.trans (.single (.note (e := .removed _) trivial))
  · exact erased

theorem stopListening_rounds (ticket : Nat) : Rounds setup (stopListening ticket) := .modify (fun _ => rfl) fun _ => rfl

theorem drain_rounds : Rounds setup drain := .modifyGet (fun _ => rfl) fun _ => rfl

/-- A session is registered for a call that was made. -/
theorem register_beats {entry : Session} {request : Packet} {r : Registration}
    (requested : Requested setup s.journal entry.ticket request) (h : register entry request s = .ok (r, t)) :
    Beats setup s K t K := by
  rcases register_cases h with ⟨-, -, rfl⟩ | ⟨-, -, -, rfl⟩
  · exact .refl
  · exact .single (.enroll requested)

/-! ### Writing -/

theorem reportAll_rounds : ∀ events : List Event, Rounds setup (reportAll events)
  | [] => .pure
  | e :: rest => (record_rounds (e := .event e) trivial).bind fun _ => reportAll_rounds rest

section

variable (round : inner.Round setup)
include round

theorem receiveFrame_rounds : ∀ frame, Rounds setup (receiveFrame inner frame)
  | .ok frame => round.receive frame
  | .error _ => .pure

theorem react_rounds : ∀ reactions, Rounds setup (react inner reactions)
  | [] => .pure
  | .close :: rest => round.close.bind fun _ => react_rounds rest
  | .receive frame event :: rest => by
    refine (receiveFrame_rounds round frame).bind fun result => ?_
    exact (record_rounds (e := .event (event result)) trivial).bind fun _ => react_rounds rest

omit round in
theorem countFrame_rounds (frame : Bytes) : Rounds setup (countFrame frame) := by
  intro s x t h K
  have counted : Beats setup s K { s with writes := s.writes + 1 } K := .single (.still rfl rfl)
  obtain rfl := modify_eq_ok.mp h
  dsimp only
  split
  · exact counted.trans (.single (.note (e := .wrote frame) trivial))
  · exact counted

theorem write_rounds (frame : Bytes) : Rounds setup (write inner frame) := by
  refine Rounds.get.bind fun s => (countFrame_rounds frame).bind fun _ => ?_
  exact (react_rounds round (s.line.reactions s.writes frame)).bind fun _ => .pure

theorem send_rounds (p : Parcel) : Rounds setup (send setup inner p) := by
  unfold send
  rcases p.frame setup.framing with ⟨q, fault | frame⟩
  · exact .pure
  · exact (write_rounds round frame).bind fun _ => .pure

theorem sendAway_rounds (p : Parcel) (content : Except Fault Content) : Rounds setup (sendAway setup inner p content) := by
  unfold sendAway
  rcases p.load content with ⟨q, fault | _⟩
  · exact (putParcel_rounds q).bind fun _ => .pure
  · exact (send_rounds round q).bind fun ⟨q', result⟩ => (putParcel_rounds q').bind fun _ => .pure

theorem respond_rounds (c : Context) (content : Except Fault Content) (metadata : Metadata) :
    Rounds setup (respond setup inner c content metadata) := by
  unfold respond
  rcases c.mayRespond with fault | _
  · exact .pure
  · exact answer_rounds.bind fun p => sendAway_rounds round p content

theorem notify_rounds (m : Outbound) : Rounds setup (notify setup inner m) :=
  issue_rounds.bind fun p => sendAway_rounds round p (m.body.map .value)

/-! ### Asynchronous calls -/

omit round in
theorem takeUp_rounds (pending : Pending) (limit : Duration) : Rounds setup (takeUp setup pending limit) := by
  unfold takeUp
  cases setup.spawner with
  | drop => exact stopListening_rounds pending.ticket
  | ambient | keep => exact .modify (fun _ => rfl) fun _ => rfl

theorem expectReply_beats {m : Outbound} {pending : Pending} {frame : Bytes} {r : Except Fault Unit}
    (requested : Requested setup s.journal pending.ticket pending.request.toPacket)
    (h : expectReply setup inner m pending frame s = .ok (r, t)) : Beats setup s K t K := by
  unfold expectReply at h
  obtain ⟨answer, u, hregister, rest⟩ := bind_eq_ok.mp h
  have own : ∀ entry : Session, entry.ticket = pending.ticket →
      Requested setup s.journal entry.ticket pending.request.toPacket := fun entry same => same ▸ requested
  have registered : Beats setup s K u K := by
    refine register_beats (own _ ?_) hregister
    cases m.timeout <;> rfl
  refine registered.trans ?_
  cases answer with
  | refused => exact ((putParcel_rounds pending.request).bind fun _ => .pure) _ _ _ rest K
  | accepted =>
    obtain ⟨result, v, hwrite, rest⟩ := bind_eq_ok.mp rest
    refine (write_rounds round frame _ _ _ hwrite K).trans ?_
    -- A request that was not written gives its callbacks back; one that was has a task wait where there is a limit.
    rcases result with fault | _ <;> cases timed : m.timeout <;> simp only [timed] at rest
    · refine ((record_rounds (e := .unsent _ fault) trivial).bind fun _ => (discard_rounds _).bind fun found => ?_) _ _ _ rest K
      rcases found with _ | ⟨ticket, listening⟩ | orphan
      · exact .pure
      · exact .pure
      · exact (putParcel_rounds _).bind fun _ => .pure
    · refine ((record_rounds (e := .unsent _ fault) trivial).bind fun _ => (discard_rounds _).bind fun _ => ?_) _ _ _ rest K
      exact (takeMail_rounds _).bind fun _ => (putParcel_rounds _).bind fun _ => .pure
    · exact Rounds.pure _ _ _ rest K
    · exact ((takeUp_rounds _ _).bind fun _ => .pure) _ _ _ rest K

theorem request_beats {m : Outbound} {callbacks : List Program} {ticket : Nat} {r : Except Fault Unit}
    (asked : .calledAsync ticket m callbacks ∈ s.journal)
    (h : request setup inner m callbacks ticket s = .ok (r, t)) : Beats setup s K t K := by
  unfold request at h
  obtain ⟨_, _, hget, h⟩ := bind_eq_ok.mp h
  obtain ⟨rfl, rfl⟩ := get_eq_ok.mp hget
  split at h
  · obtain ⟨-, rfl⟩ := pure_eq_ok.mp h
    exact .refl
  obtain ⟨p, u, hissue, h⟩ := bind_eq_ok.mp h
  refine (issue_rounds _ _ _ hissue K).trans ?_
  rcases hload : p.load (m.body.map .value) with ⟨q, fault | _⟩
  · rw [hload] at h
    exact ((putParcel_rounds q).bind fun _ => .pure) _ _ _ h K
  rw [hload] at h
  have drafts := drafts_of_issue hissue hload
  have same := Parcel.frame_toPacket q setup.framing
  have encoded := Parcel.frame_eq_encode setup.framing q
  rcases hframe : q.frame setup.framing with ⟨q', fault | frame⟩
  · simp only [hframe] at h
    exact ((putParcel_rounds q').bind fun _ => .pure) _ _ _ h K
  · simp only [hframe] at h
    rw [hframe] at same encoded
    refine expectReply_beats round ⟨.async m callbacks, ?_, ?_, fun _ _ _ => ⟨frame, ?_⟩⟩ h
    · obtain ⟨-, -, rfl⟩ := issue_eq_ok hissue
      exact asked
    · change m.Drafts q'.toPacket
      exact same ▸ drafts
    · change setup.framing.encode q'.toPacket = _
      rw [same, ← encoded]

theorem callAsync_rounds (m : Outbound) (callbacks : List Program) : Rounds setup (callAsync setup inner m callbacks) := by
  intro s r t h K
  unfold callAsync at h
  obtain ⟨ticket, u, hopen, h⟩ := bind_eq_ok.mp h
  obtain ⟨_, v, hrec, h⟩ := bind_eq_ok.mp h
  obtain rfl := record_eq_ok.mp hrec
  obtain ⟨result, w, hrequest, h⟩ := bind_eq_ok.mp h
  have opened : Beats setup s K u K := openTicket_rounds _ _ _ hopen K
  have noted : Beats setup u K (u.note (.calledAsync ticket m callbacks)) K := .single (.note trivial)
  have requested : Beats setup _ K w K := request_beats round List.mem_cons_self hrequest
  refine (opened.trans noted).trans (requested.trans ?_)
  exact ((record_rounds (e := .returned ticket result) trivial).bind fun _ => .pure) _ _ _ h K

end

end Engine

/-! ### Handlers -/

/-- The chains under way with the one of a context, which lasts until its packet is given back. -/
def Context.atop (k : Chain) (K : List Chain) (c : Context) : List Chain := if c.released then K else k :: K

/-- The packet of a context counts towards the load just when its chain does. -/
def Context.Weighs (setup : Setup) (k : Chain) (c : Context) : Prop := c.released = false → c.counted = setup.counts k

namespace Engine

variable {setup : Setup} {inner : Inner} {s t : Engine} {K : List Chain} {k : Chain}

/-- From one context and state to others a context's chain stays under way, unless its packet is given back. -/
def Carried (setup : Setup) (k : Chain) (c : Context) (s : Engine) (c' : Context) (t : Engine) : Prop :=
  c.Weighs setup k → c'.Weighs setup k ∧ ∀ K, Beats setup s (c.atop k K) t (c'.atop k K)

namespace Carried

variable {α : Type} {c c' c'' : Context} {u : Engine}

theorem refl : Carried setup k c s c s := fun weighs => ⟨weighs, fun _ => .refl⟩

theorem trans (first : Carried setup k c s c' t) (second : Carried setup k c' t c'' u) : Carried setup k c s c'' u := by
  intro weighs
  obtain ⟨weighs', beats⟩ := first weighs
  obtain ⟨weighs'', beats'⟩ := second weighs'
  exact ⟨weighs'', fun K => (beats K).trans (beats' K)⟩

/-- Work beside a context leaves it as it is. -/
theorem beside {m : EngineM α} {a : α} (rounds : Rounds setup m) (h : m s = .ok (a, t)) : Carried setup k c s c t :=
  fun weighs => ⟨weighs, fun K => rounds s a t h (c.atop k K)⟩

end Carried

/-- What runs handlers on a context leaves the context's chain under way, unless it gives the packet back. -/
def Carries (setup : Setup) (k : Chain) (run : Context → EngineM Context) : Prop :=
  ∀ {c c' : Context} {s t : Engine}, run c s = .ok (c', t) → Carried setup k c s c' t

theorem release_beats {c c' : Context} (weighs : c.Weighs setup k) (h : release c s = .ok (c', t)) :
    c'.released = true ∧ ∀ K, Beats setup s (c.atop k K) t K := by
  unfold release at h
  unfold Context.atop
  split at h
  · rename_i released
    obtain ⟨rfl, rfl⟩ := pure_eq_ok.mp h
    refine ⟨released, fun K => ?_⟩
    rw [if_pos released]
    exact .refl
  · rename_i held
    obtain ⟨_, u, hput, h⟩ := bind_eq_ok.mp h
    obtain ⟨_, v, hload, h⟩ := bind_eq_ok.mp h
    obtain rfl := modify_eq_ok.mp hload
    obtain ⟨rfl, rfl⟩ := pure_eq_ok.mp h
    refine ⟨rfl, fun K => ?_⟩
    rw [if_neg held]
    have own : c.counted = setup.counts k := weighs (by simpa using held)
    exact (putParcel_rounds c.parcel _ _ _ hput (k :: K)).trans (.single (.release c.parcel.toPacket own))

theorem release_carries : Carries setup k release := by
  intro c c' s t h weighs
  obtain ⟨released, beats⟩ := release_beats weighs h
  refine ⟨fun held => absurd (released.symm.trans held) nofun, fun K => ?_⟩
  have none : c'.atop k K = K := if_pos released
  rw [none]
  exact beats K

section

variable (round : inner.Round setup)
include round

theorem perform_carries {onNext : Context → EngineM Context} (next : Carries setup k onNext) :
    ∀ handler : Program, Carries setup k (perform setup inner onNext handler)
  | .done, c, c', s, t, h => by
    obtain ⟨rfl, rfl⟩ := pure_eq_ok.mp h
    exact .refl
  | .next rest, c, c', s, t, h => by
    obtain ⟨c₁, u, hnext, h⟩ := bind_eq_ok.mp h
    exact (next hnext).trans (perform_carries next rest h)
  | .abort rest, c, c', s, t, h => perform_carries next rest (c := c.abort) h
  | .edit change rest, c, c', s, t, h => perform_carries next rest (c := c.edit change) h
  | .setPeer peer rest, c, c', s, t, h => perform_carries next rest (c := c.setPeer peer) h
  | .look rest, c, c', s, t, h => by
    obtain ⟨_, _, hget, h⟩ := bind_eq_ok.mp h
    obtain ⟨rfl, rfl⟩ := get_eq_ok.mp hget
    obtain ⟨_, u, hrec, h⟩ := bind_eq_ok.mp h
    obtain rfl := record_eq_ok.mp hrec
    have looked : Carried setup k c s c (s.note (.looked s.load)) := fun weighs => ⟨weighs, fun K => .single .look⟩
    exact looked.trans (perform_carries next (rest _) h)
  | .respond content metadata rest, c, c', s, t, h => by
    obtain ⟨result, u, hrespond, h⟩ := bind_eq_ok.mp h
    exact (Carried.beside (respond_rounds round c content metadata) hrespond).trans (perform_carries next (rest result) h)
  | .receive frame rest, c, c', s, t, h => by
    obtain ⟨result, u, hreceive, h⟩ := bind_eq_ok.mp h
    exact (Carried.beside (round.receive frame) hreceive).trans (perform_carries next (rest result) h)
  | .close rest, c, c', s, t, h => by
    obtain ⟨_, u, hclose, h⟩ := bind_eq_ok.mp h
    exact (Carried.beside round.close hclose).trans (perform_carries next rest h)
  | .notify m rest, c, c', s, t, h => by
    obtain ⟨result, u, hnotify, h⟩ := bind_eq_ok.mp h
    exact (Carried.beside (notify_rounds round m) hnotify).trans (perform_carries next (rest result) h)
  | .callAsync m callbacks rest, c, c', s, t, h => by
    obtain ⟨result, u, hcall, h⟩ := bind_eq_ok.mp h
    exact (Carried.beside (callAsync_rounds round m callbacks) hcall).trans (perform_carries next (rest result) h)
  | .report event rest, c, c', s, t, h => by
    obtain ⟨_, u, hrec, h⟩ := bind_eq_ok.mp h
    exact (Carried.beside (record_rounds (e := .event event) trivial) hrec).trans (perform_carries next rest h)
  | .reportCounts source rest, c, c', s, t, h => by
    obtain ⟨_, _, hget, h⟩ := bind_eq_ok.mp h
    obtain ⟨rfl, rfl⟩ := get_eq_ok.mp hget
    obtain ⟨_, u, hrec, h⟩ := bind_eq_ok.mp h
    exact (Carried.beside (record_rounds (e := .event _) trivial) hrec).trans (perform_carries next rest h)

omit round in
theorem within_carries {run : Context → EngineM Context} (carries : Carries setup k run) : Carries setup k (within run) := by
  intro c c' s t h
  unfold within at h
  obtain ⟨c₁, u, hrun, h⟩ := bind_eq_ok.mp h
  have inside : Carried setup k c s c₁ u := carries (c := c.enter) hrun
  split at h
  · exact inside.trans (release_carries (c := c₁.leave) h)
  · obtain ⟨rfl, rfl⟩ := pure_eq_ok.mp h
    exact inside

theorem runFrom_carries (handlers : List Program) : ∀ position, Carries setup k (runFrom setup inner position handlers) := by
  induction handlers with
  | nil =>
    intro position c c' s t h
    obtain ⟨rfl, rfl⟩ := pure_eq_ok.mp h
    exact .refl
  | cons handler rest ih =>
    intro position c c' s t h
    unfold runFrom at h
    split at h
    · obtain ⟨_, u, hrec, h⟩ := bind_eq_ok.mp h
      obtain ⟨c₁, v, hperform, h⟩ := bind_eq_ok.mp h
      have begun : Carried setup k c s c u := .beside (record_rounds (e := .started position) trivial) hrec
      have handled : Carried setup k c u c₁ v :=
        perform_carries round (within_carries (ih (position + 1))) handler (c := c.start) hperform
      exact (begun.trans handled).trans (ih (position + 1) h)
    · obtain ⟨rfl, rfl⟩ := pure_eq_ok.mp h
      exact .refl

theorem next_carries (chain : List Program) : Carries setup k (next setup inner chain) :=
  within_carries (runFrom_carries round chain 0)

/-! ### Callbacks -/

omit round in
/-- A context on its way ends its chain. -/
theorem drive_beats {entry : Context → EngineM Context} (carries : Carries setup k entry) {c : Context} {x : Unit}
    (held : c.released = false) (weighs : c.Weighs setup k) (h : drive entry c s = .ok (x, t)) :
    Beats setup s (k :: K) t K := by
  unfold drive at h
  obtain ⟨c₁, u, hentry, h⟩ := bind_eq_ok.mp h
  obtain ⟨weighs', ran⟩ := carries hentry weighs
  obtain ⟨c₂, v, hrelease, h⟩ := bind_eq_ok.mp h
  have given := (release_beats weighs' hrelease).2 K
  have begun : c.atop k K = k :: K := if_neg (by simp [held])
  -- A context on its way has its packet still, so the chain is there to be ended.
  exact ((begun ▸ ran K).trans given).trans (putContext_rounds c₂ _ _ _ h K)

theorem deliver_rounds (pending : Pending) (p : Parcel) : Rounds setup (deliver setup inner pending p) := by
  intro s x t h K
  obtain ⟨depth, rfl⟩ := round.nested
  unfold deliver at h
  obtain ⟨_, u, hrec, h⟩ := bind_eq_ok.mp h
  obtain rfl := record_eq_ok.mp hrec
  obtain ⟨c, v, hcontext, h⟩ := bind_eq_ok.mp h
  have taken : Beats setup _ (.callbacks :: K) v (.callbacks :: K) := takeContext_rounds _ _ _ hcontext _
  obtain ⟨rfl, rfl⟩ := takeContext_eq_ok.mp hcontext
  obtain ⟨_, w, hdrive, h⟩ := bind_eq_ok.mp h
  have driven : Beats setup _ (.callbacks :: K) w K :=
    drive_beats (perform_carries round (next_carries round pending.callbacks) _) rfl (fun _ => rfl) hdrive
  -- The depth is that of the work within, so this is the very run that callbacks are.
  have whole : pending.RunsOn setup depth p s w := hdrive
  exact (Beats.callbacks .refl (taken.trans driven) whole).trans (putParcel_rounds pending.request _ _ _ h K)

omit round in
theorem synthesize_rounds (request : Packet) (fault : Fault) : Rounds setup (synthesize request fault) :=
  answer_rounds.bind fun _ => .pure

/-! ### Frames that arrive -/

omit round in
theorem filterData_rounds (filters : List (Bytes → Filtered Bytes)) (data : Bytes) :
    Rounds setup (filterData filters data) := by
  induction filters generalizing data with
  | nil => exact .pure
  | cons filter rest ih =>
    refine (reportAll_rounds _).bind fun _ => ?_
    rcases (filter data).verdict with fault | verdict
    · exact .pure
    · cases verdict with
      | pass => exact ih _
      | stop => exact .pure

omit round in
theorem filterPacket_rounds (filters : List (Packet → Filtered Packet)) (p : Parcel) :
    Rounds setup (filterPacket filters p) := by
  induction filters generalizing p with
  | nil => exact .pure
  | cons filter rest ih =>
    refine (reportAll_rounds _).bind fun _ => ?_
    rcases (filter p.toPacket).verdict with fault | verdict
    · exact .pure
    · cases verdict with
      | pass => exact ih _
      | stop => exact .pure

theorem acceptReply_rounds (p : Parcel) : Rounds setup (acceptReply setup inner p) := by
  refine (takeSession_rounds _).bind fun found => ?_
  rcases found with _ | entry
  · exact (record_rounds (e := .unmatched p.toPacket) trivial).bind fun _ => putParcel_rounds p
  refine (record_rounds (e := .matched _ _) trivial).bind fun _ => ?_
  cases entry with
  | callback pending => exact deliver_rounds round pending p
  | waiting ticket listening =>
    cases listening with
    | true => exact .modify (fun _ => rfl) fun _ => rfl
    | false => exact putParcel_rounds p

theorem intercept_rounds (p : Parcel) : Rounds setup (intercept setup inner p) := by
  unfold intercept
  cases setup.hook with
  | none => exact .pure
  | replies =>
    dsimp only
    split
    · exact (acceptReply_rounds round p).bind fun _ => .pure
    · exact .pure
  | custom look =>
    refine (reportAll_rounds _).bind fun _ => ?_
    rcases (look p.toPacket).packet with _ | q
    · exact (putParcel_rounds p).bind fun _ => .pure
    · exact .pure

/-- The chain that an inbound packet meets has ended when the packet has gone along it. -/
theorem handle_beats {p : Parcel} {chain : List Program} {counted : Bool} {r : Except Fault Unit}
    (own : counted = setup.counts .inbound)
    (h : (do
      let c ← takeContext
      drive (next setup inner chain) ((c.bind p counted).setPeer setup.peer)
      pure (.ok ()) : EngineM (Except Fault Unit)) s = .ok (r, t)) : Beats setup s (.inbound :: K) t K := by
  obtain ⟨c, u, hcontext, h⟩ := bind_eq_ok.mp h
  obtain ⟨_, v, hdrive, h⟩ := bind_eq_ok.mp h
  obtain ⟨-, rfl⟩ := pure_eq_ok.mp h
  have driven : Beats setup u (.inbound :: K) v K := drive_beats (next_carries round chain) rfl (fun _ => own) hdrive
  exact (takeContext_rounds _ _ _ hcontext _).trans driven

/-- A routed packet is dropped, or its chain begins and ends. -/
theorem dispatch_rounds (p : Parcel) : Rounds setup (dispatch setup inner p) := by
  unfold dispatch
  rcases setup.router.resolve p.toPacket with fault | chain
  · exact (putParcel_rounds p).bind fun _ => .pure
  intro s r t h K
  obtain ⟨weight, u, hweigh, h⟩ := bind_eq_ok.mp h
  cases limit : setup.overloaded with
  | none =>
    have free : false = setup.counts .inbound := by simp [Setup.counts, limit]
    obtain ⟨rfl, rfl⟩ := Prod.mk.inj (Except.ok.inj ((weigh_of_none limit).symm.trans hweigh))
    obtain ⟨_, v, hrec, h⟩ := bind_eq_ok.mp h
    obtain rfl := record_eq_ok.mp hrec
    exact (Beats.single (.route p.toPacket limit)).trans (handle_beats round free h)
  | some overloaded =>
    have counted : true = setup.counts .inbound := by simp [Setup.counts, limit]
    obtain ⟨rfl, rfl⟩ := Prod.mk.inj (Except.ok.inj ((weigh_of_some limit).symm.trans hweigh))
    cases heavy : overloaded (s.load + 1) with
    | true =>
      simp only [heavy, if_true] at h
      exact (Beats.single (.drop limit heavy)).trans (((putParcel_rounds p).bind fun _ => .pure) _ _ _ h K)
    | false =>
      simp only [heavy, Bool.false_eq_true, if_false] at h
      obtain ⟨_, v, hrec, h⟩ := bind_eq_ok.mp h
      obtain rfl := record_eq_ok.mp hrec
      exact (Beats.single (.accept p.toPacket limit heavy)).trans (handle_beats round counted h)

theorem welcome_rounds (p : Parcel) : Rounds setup (welcome setup inner p) := by
  refine (intercept_rounds round p).bind fun kept => ?_
  rcases kept with _ | q
  · exact .pure
  refine (record_rounds (e := .screened _) trivial).bind fun _ => (filterPacket_rounds _ q).bind fun ⟨q', verdict⟩ => ?_
  rcases verdict with fault | verdict
  · exact (putParcel_rounds q').bind fun _ => .pure
  · cases verdict with
    | pass => exact dispatch_rounds round q'
    | stop => exact (putParcel_rounds q').bind fun _ => .pure

theorem receiveWith_rounds (data : Bytes) : Rounds setup (receiveWith setup inner data) := by
  refine (filterData_rounds _ data).bind fun filtered => ?_
  rcases filtered with fault | _ | data'
  · exact .pure
  · exact .pure
  refine takeParcel_rounds.bind fun p => ?_
  rcases p.unframe setup.framing data' with ⟨q, fault | _⟩
  · exact (putParcel_rounds q).bind fun _ => .pure
  · exact welcome_rounds round q

/-! ### Closing -/

theorem endAll_rounds : ∀ sessions : List (UInt64 × Session), Rounds setup (endAll setup inner sessions)
  | [] => .pure
  | (_, .waiting _ _) :: rest => endAll_rounds rest
  | (_, .callback pending) :: rest => (synthesize_rounds _ _).bind fun p =>
    (deliver_rounds round pending p).bind fun _ => endAll_rounds rest

theorem closeWith_rounds : Rounds setup (closeWith setup inner) :=
  (record_rounds (e := .closed) trivial).bind fun _ => drain_rounds.bind fun _ => endAll_rounds round _

end

theorem nested_round (setup : Setup) (depth : Nat) : (nested setup depth).Round setup := by
  induction depth with
  | zero => exact ⟨⟨0, rfl⟩, fun _ _ _ _ h => absurd h throw_eq_ok, fun _ _ _ h => absurd h throw_eq_ok⟩
  | succ depth ih => exact ⟨⟨depth + 1, rfl⟩, receiveWith_rounds ih, closeWith_rounds ih⟩

/-! ### All that can be done with a connection -/

theorem startCall_rounds (m : Outbound) : Rounds setup (startCall m) := by
  refine openTicket_rounds.bind fun ticket => (record_rounds (e := .called ticket m) trivial).bind fun _ => ?_
  refine Rounds.bind ?_ fun _ => .pure
  exact .modify (fun _ => rfl) fun _ => rfl

theorem takeCall_rounds (ticket : Nat) : Rounds setup (takeCall ticket) := .modifyGet (fun _ => rfl) fun _ => rfl

theorem keepCall_rounds (c : Call) : Rounds setup (keepCall c) := .modify (fun _ => rfl) fun _ => rfl

theorem takeWait_rounds (ticket : Nat) : Rounds setup (takeWait ticket) := .modifyGet (fun _ => rfl) fun _ => rfl

theorem keepWait_rounds (w : Wait) : Rounds setup (keepWait w) := .modify (fun _ => rfl) fun _ => rfl

theorem finish_rounds (ticket : Nat) (result : Except Fault Bytes) : Rounds setup (finish ticket result) :=
  (record_rounds (e := .finished ticket result) trivial).bind fun _ => .pure

theorem finishSession_rounds (ticket : Nat) (session : UInt64) (result : Except Fault Bytes) :
    Rounds setup (finishSession ticket session result) := by
  refine (finish_rounds ticket result).bind fun _ => (discard_rounds session).bind fun _ => ?_
  exact (takeMail_rounds ticket).bind fun _ => .pure

theorem awaitReply_rounds (now : Nat) (c : Call) (session : UInt64) (deadline : Option (Nat × Duration)) :
    Rounds setup (awaitReply now c session deadline) := by
  refine (takeMail_rounds _).bind fun found => ?_
  rcases found with _ | p
  · refine Rounds.get.bind fun s => ?_
    split
    · exact finishSession_rounds _ _ _
    · cases passed now deadline with
      | none => exact (keepCall_rounds _).bind fun _ => .pure
      | some limit => exact (record_rounds (e := .expired c.ticket now) trivial).bind fun _ => finishSession_rounds _ _ _
  · exact (putParcel_rounds p).bind fun _ => finishSession_rounds _ _ _

theorem cancelCall_rounds (ticket : Nat) : Rounds setup (cancelCall ticket) := by
  refine (takeCall_rounds ticket).bind fun found => ?_
  rcases found with _ | c
  · exact .pure
  refine (record_rounds (e := .cancelled ticket) trivial).bind fun _ => ?_
  cases c.phase with
  | created => exact .pure
  | waiting session _ => exact (discard_rounds session).bind fun _ => (takeMail_rounds ticket).bind fun _ => .pure

section

variable (round : inner.Round setup)
include round

theorem sendCall_beats {now : Nat} {c : Call} {r : Option (Except Fault Bytes)}
    (asked : .called c.ticket c.message ∈ s.journal) (h : sendCall setup inner now c s = .ok (r, t)) :
    Beats setup s K t K := by
  unfold sendCall at h
  obtain ⟨p, u, hissue, h⟩ := bind_eq_ok.mp h
  refine (issue_rounds _ _ _ hissue K).trans ?_
  rcases hload : p.load (c.message.body.map .value) with ⟨q, fault | _⟩
  · rw [hload] at h
    exact ((putParcel_rounds q).bind fun _ => finish_rounds _ _) _ _ _ h K
  rw [hload] at h
  have drafts := drafts_of_issue hissue hload
  obtain ⟨answer, v, hregister, h⟩ := bind_eq_ok.mp h
  have registered : Beats setup u K v K := by
    refine register_beats ⟨.call c.message, ?_, drafts, nofun⟩ hregister
    obtain ⟨-, -, rfl⟩ := issue_eq_ok hissue
    exact asked
  refine registered.trans ?_
  cases answer with
  | refused => exact ((putParcel_rounds q).bind fun _ => finish_rounds _ _) _ _ _ h K
  | accepted =>
    refine ((send_rounds round q).bind fun ⟨q', result⟩ => (putParcel_rounds q').bind fun _ => ?_) _ _ _ h K
    rcases result with fault | _
    · exact (record_rounds (e := .unsent c.ticket fault) trivial).bind fun _ => finishSession_rounds _ _ _
    · exact (record_rounds (e := .began c.ticket now) trivial).bind fun _ => awaitReply_rounds _ _ _ _

theorem pollCall_beats {now ticket : Nat} {r : Option (Except Fault Bytes)}
    (asked : ∀ c ∈ s.calls, .called c.ticket c.message ∈ s.journal)
    (h : pollCall setup inner now ticket s = .ok (r, t)) : Beats setup s K t K := by
  unfold pollCall at h
  obtain ⟨found, u, htake, h⟩ := bind_eq_ok.mp h
  obtain ⟨hfound, rfl⟩ := Prod.mk.inj (modifyGet_eq_ok.mp htake)
  refine (takeCall_rounds ticket _ _ _ htake K).trans ?_
  rcases found with _ | c
  · exact Rounds.pure _ _ _ h K
  dsimp only at h
  cases phase : c.phase with
  | created =>
    rw [phase] at h
    -- A call that is kept was made.
    exact sendCall_beats round (asked c (List.mem_of_find?_eq_some hfound)) h
  | waiting session deadline =>
    rw [phase] at h
    exact awaitReply_rounds now c session deadline _ _ _ h K

omit round in
theorem beginWait_rounds (now : Nat) (w : Wait) : Rounds setup (beginWait now w) := by
  unfold beginWait
  cases w.deadline with
  | some deadline => exact .pure
  | none => exact (record_rounds (e := .began w.pending.ticket now) trivial).bind fun _ => .pure

theorem pollWait_rounds (now ticket : Nat) : Rounds setup (pollWait setup inner now ticket) := by
  refine (takeWait_rounds ticket).bind fun found => ?_
  rcases found with _ | w
  · exact .pure
  refine (beginWait_rounds now w).bind fun deadline => (takeMail_rounds ticket).bind fun reply => ?_
  rcases reply with _ | p
  · refine Rounds.get.bind fun s => ?_
    split
    · exact (synthesize_rounds _ _).bind fun p => deliver_rounds round w.pending p
    split
    · refine (record_rounds (e := .expired ticket now) trivial).bind fun _ => (discard_rounds _).bind fun _ => ?_
      exact (synthesize_rounds _ _).bind fun p => deliver_rounds round w.pending p
    · exact keepWait_rounds _
  · exact deliver_rounds round w.pending p

end

theorem act_beats {depth : Nat} {a : Act} {o : Outcome} (inv : Inv setup s 0)
    (h : act setup depth a s = .ok (o, t)) : Beats setup s K t K := by
  have round := nested_round setup depth
  cases a with
  | receive data => exact (receiveWith_rounds round data).map _ _ _ h K
  | notify m => exact (notify_rounds round m).map _ _ _ h K
  | callAsync m callbacks => exact (callAsync_rounds round m callbacks).map _ _ _ h K
  | startCall m => exact (startCall_rounds m).map _ _ _ h K
  | pollCall now ticket =>
    obtain ⟨r, hpoll, -⟩ := map_eq_ok.mp h
    refine pollCall_beats round (fun c mem => ?_) hpoll
    have fits : (Token.calling c).Fits (s.standing c.ticket) := inv.fits _ (calling_mem_estate mem)
    exact mem_of_made fits.1
  | cancelCall ticket => exact ((cancelCall_rounds ticket).bind fun _ => .pure) _ _ _ h K
  | pollWait now ticket => exact ((pollWait_rounds round now ticket).bind fun _ => .pure) _ _ _ h K
  | nextSession =>
    obtain ⟨-, rfl⟩ := Prod.mk.inj (modifyGet_eq_ok.mp h)
    exact .single (.still rfl rfl)
  | close => exact ((closeWith_rounds round).bind fun _ => .pure) _ _ _ h K

variable {shared : Bool}

/-- Between two things done with a connection no chain is under way, and nothing is counted towards the load. What was
    told is true. -/
theorem Reachable.level (run : Reachable setup shared s) : openChains s.journal = [] ∧ s.load = 0 ∧
    ∀ later e earlier, s.journal = later ++ e :: earlier → e.Honest setup 0 earlier := by
  induction run with
  | start => exact ⟨rfl, rfl, fun later e earlier split => absurd split (by simp)⟩
  | @act s t o before depth a done ih =>
    obtain ⟨idle, zero, honest⟩ := ih
    have tally := (act_beats (K := []) before.inv done).tally idle
    -- All that was told before is told of a state in which nothing was under way.
    have start : Tally setup {} [] s [] := by
      refine ⟨idle, by rw [zero], s.journal, by simp, fun later e earlier split => ?_⟩
      simpa using honest later e earlier split
    obtain ⟨chains, load, es, journal, honest⟩ := start.trans tally
    refine ⟨chains, by simpa using load, fun later e earlier split => ?_⟩
    simpa using honest later e earlier (by simpa using journal.symm.trans split)
  | around _ _ _ ih => exact ih
  | others _ _ _ _ _ ih => exact ih

end Engine
end Switchboard
