import Switchboard.Proofs.Link.Exchange

/-! Calls between two ends that are joined, whatever else is done at either and in whatever order the frames arrive. The
    request of a call is served once at the other end, as its caller gave it, and the call comes back with the first
    response of its handlers that arrives. -/

namespace Switchboard

open Engine

/-- A codec decodes what it encodes. -/
def Codec.Lawful {α : Type} (codec : Codec α) : Prop :=
  ∀ {a octets}, codec.encode a = .ok octets → codec.decode octets = .ok a

section

variable {α : Type} {codec : Codec α} {a : α}

theorem Outbound.Drafts.value {m : Outbound} {q : Packet} (drafts : m.Drafts q) (lawful : codec.Lawful)
    (body : m.body = codec.encode a) : q.value codec = .ok a := by
  have encoded : codec.encode a = .ok q.payload := body.symm.trans (drafts.body.trans drafts.payload)
  unfold Packet.value
  rw [drafts.payload]
  exact lawful encoded

theorem Content.decoded {c : Content} (lawful : codec.Lawful) (encoded : (codec.encode a).map Content.value = .ok c) :
    c.outcome.bind codec.decode = .ok a := by
  cases octets : codec.encode a with
  | error fault =>
    rw [octets] at encoded
    cases encoded
  | ok o =>
    rw [octets] at encoded
    cases encoded
    exact lawful octets

end

/-! ### At the other end -/

/-- The packet of a frame went along a chain: its handlers ran in their order, each once and to its end, and all of them
    unless one skipped those after it. -/
structure RunsOnce (setup : Setup) (q : Packet) (chain : List Program) (D : Passage) (ds : List Deed) : Prop where
  served : Served setup D.depth q chain ds D.before D.after
  inTurn : InTurn chain ds
  all : .abort ∉ ds → starts ds = List.range chain.length
  finished : ∀ position ∈ starts ds, .finish (some position) ∈ ds

theorem Engine.Served.runsOnce {setup : Setup} {q : Packet} {chain : List Program} {D : Passage} {ds : List Deed}
    (short : chain.length < abortIndex) (served : Served setup D.depth q chain ds D.before D.after) :
    RunsOnce setup q chain D ds := by
  obtain ⟨c, p, u, c', -, -, run⟩ := id served
  -- The way begins with asking for the handlers, so they are run unless one of them aborts.
  have asked : .enter ∈ ds := by
    cases run with
    | cons first rest =>
      cases first with
      | enter => exact List.mem_cons_self
      | aside first => cases first
  have holds := run.disciplined short
  exact ⟨served, holds.inTurn, holds.settled.all asked, holds.settled.finished⟩

/-- A handler of a request responded with some content, and the response bears it. -/
def RespondedWith (setup : Setup) (q : Packet) (D : Passage) (c : Content) (p : Packet) : Prop :=
  ∃ chain ds r metadata, setup.router.resolve q = .ok chain ∧ RunsOnce setup q chain D ds ∧
    .respond r (.ok c) metadata (.ok ()) ∈ ds ∧ p = setup.framing.layout.borne (r.reply metadata c)

theorem RespondedWith.carried {setup : Setup} {q : Packet} {D : Passage} {c : Content} {p : Packet}
    (responded : RespondedWith setup q D c p) : p.carried = c.outcome := by
  obtain ⟨chain, ds, r, metadata, -, -, -, rfl⟩ := responded
  exact (Layout.carried_borne _ _).trans (Packet.carried_carry _ _)

section

variable {setup : Setup} {D : Passage} {p q : Packet} {chain : List Program} (sound : D.Sound setup)
  (upright : setup.Upright) (borne : setup.framing.packet? D.frame = some q)
include sound upright borne

/-- A request whose route leads to a chain runs it, and each response of its handlers is written, under its number. -/
theorem Passage.Sound.runsOnce (request : q.command = .request) (resolved : setup.router.resolve q = .ok chain) :
    ∃ ds, RunsOnce setup q chain D ds ∧ ∀ r c metadata, .respond r (.ok c) metadata (.ok ()) ∈ ds →
      ∃ p, D.Utters setup.framing p ∧ p.session = q.session := by
  obtain ⟨said, reception, utters, -, own⟩ := sound.reception upright
  rw [borne] at reception
  cases reception with
  | reply response => cases request.symm.trans response
  | unrouted _ unresolved => cases resolved.symm.trans unresolved
  | @served _ _ ds _ resolved' served =>
    cases resolved.symm.trans resolved'
    refine ⟨ds, served.runsOnce (upright.short resolved), fun r c metadata mem => ?_⟩
    have said := (mem_replies (l := setup.framing.layout)).mpr ⟨r, c, metadata, mem, rfl⟩
    obtain ⟨q', asked, number⟩ := own _ said
    obtain rfl : q = q' := Option.some.inj (borne.symm.trans (Framing.request?_eq_some.mp asked).1)
    exact ⟨_, (utters _).mpr said, number⟩

/-- What was written of a request is a response of its handlers. -/
theorem Passage.Sound.respondedWith (wrote : D.Utters setup.framing p) : ∃ c, RespondedWith setup q D c p := by
  obtain ⟨said, reception, utters, -, -⟩ := sound.reception upright
  have mem := (utters p).mp wrote
  rw [borne] at reception
  cases reception with
  | reply | unrouted => cases mem
  | @served _ chain ds _ resolved served =>
    obtain ⟨r, c, metadata, responded, rfl⟩ := mem_replies.mp mem
    exact ⟨c, chain, ds, r, metadata, resolved, served.runsOnce (upright.short resolved), responded, rfl⟩

end

/-! ### From end to end -/

/-- A frame was taken in, and nothing changed but the pool that its packet went back to. -/
def Passage.Idle (D : Passage) : Prop := ∃ parcel : Parcel, D.after = { D.before with
  issuer := D.before.issuer.get.2.put parcel
  journal := .unmatched parcel.toPacket :: D.before.journal }

/-- What becomes of a call with a message whose request went out. -/
structure EndToEnd (f : Framing) (setups : Side → Setup) (J : Joint) (x : Side) (k : Nat) (m : Outbound) (q : Packet) :
    Prop where
  /-- The request has the caller's payload, metadata, reserved octet and route. -/
  drafts : m.Drafts q
  value : ∀ {α : Type} {codec : Codec α} {a : α}, codec.Lawful → m.body = codec.encode a → q.value codec = .ok a
  once : ((J x.other).askings f q.session).length ≤ 1
  arrives : ∀ {frame}, f.encode q = .ok frame → J.Drained x.other → ((J x.other).askings f q.session).length = 1
  /-- It runs its chain, and where no frame is lost a response of its handlers arrives. -/
  runs : ∀ D ∈ (J x.other).askings f q.session, ∀ chain, (setups x.other).router.resolve q = .ok chain →
    ∃ ds, RunsOnce (setups x.other) q chain D ds ∧ ∀ r c metadata, .respond r (.ok c) metadata (.ok ()) ∈ ds →
      J.Drained x → (J x).answerings f q.session ≠ []
  /-- The call comes back with what the first response bears that arrives. -/
  returns : Undisturbed (J x).engine.journal k → ∀ {later first}, (J x).answerings f q.session = later ++ [first] →
    ∃ D ∈ (J x.other).askings f q.session, ∃ c p, RespondedWith (setups x.other) q D c p ∧
      f.response? first.frame = some p ∧ Returns (setups x) (J x).engine k c.outcome ∧
      (∀ {α : Type} {codec : Codec α} {a : α}, codec.Lawful → (codec.encode a).map .value = .ok c →
        c.outcome.bind codec.decode = .ok a) ∧
      ∀ {code message}, c = .fault code message → c.outcome = .error (.stated code message none)
  /-- Further responses change nothing. -/
  further : ∀ {later first}, (J x).answerings f q.session = later ++ [first] → ∀ D ∈ later, D.Idle

variable {f : Framing} {setups : Side → Setup} {J : Joint} {x : Side} {k : Nat} {m : Outbound} {q : Packet}

section

variable (fellows : Fellows f setups) (linked : Linked setups J) (few : (J x).engine.issuer.drawn ≤ numbers)
  (registered : .registered k q ∈ (J x).engine.journal)
include fellows linked few registered

/-- A response that arrives after another one under its number changes nothing. -/
theorem Linked.further {later : List Passage} {A : Passage} (first : (J x).answerings f q.session = later ++ [A]) :
    ∀ D ∈ later, D.Idle := by
  obtain ⟨sane, -⟩ := linked.sane fellows
  intro D mem
  have answering : ∀ {B}, B ∈ later ++ [A] → B ∈ (J x).answerings f q.session := fun mem => first ▸ mem
  obtain ⟨past, p', response', number'⟩ := End.mem_answerings.mp (answering (List.mem_append_left _ mem))
  obtain ⟨pastA, p, response, number⟩ := End.mem_answerings.mp (answering List.mem_concat_self)
  have sound := (sane x).sound D past
  obtain ⟨r, taken⟩ := sound.taken
  have framing := fellows.framing x
  -- The first response was heard before the further one arrived.
  have heardA : p ∈ heard A.after.journal := by
    obtain ⟨-, -, -, listened, -⟩ := ((sane x).sound A pastA).reception (fellows.upright x)
    rw [framing, response] at listened
    exact listened ▸ List.mem_cons_self
  have ordered : ((J x).answerings f q.session).Pairwise fun D D' => Later (setups x) D'.after D.before :=
    (sane x).ordered.filter _
  rw [first] at ordered
  have since : Later (setups x) A.after D.before :=
    (List.pairwise_append.mp ordered).2.2 D mem A (List.mem_singleton_self A)
  have before : p ∈ heard D.before.journal := by
    obtain ⟨es, hes⟩ := since.journal
    rw [hes, heard_append]
    exact List.mem_append_right _ heardA
  have thence : Later (setups x) D.before (J x).engine :=
    .trans (.moves (receiveWith_moves (nested_sound _ _) taken 0)) ((sane x).later D past)
  obtain ⟨es, hes⟩ := thence.journal
  have caused : Caused D.before.journal := (hes ▸ (sane x).caused).drop
  have known : .registered k q ∈ D.before.journal := by
    obtain ⟨k', q', enrolled, same⟩ := caused.registered before
    have there : .registered k' q' ∈ (J x).engine.journal := hes ▸ List.mem_append_right es enrolled
    obtain ⟨rfl, rfl⟩ := (sane x).reachable.registered_unique few registered there (same.trans number)
    exact enrolled
  exact sound.reachable.further (thence.drawn.trans few) (fellows.upright x) caused known before number
    (framing.symm ▸ response') number' taken

theorem Linked.endToEnd {m : Outbound} (called : .called k m ∈ (J x).engine.journal) (suits : f.layout.Suits m.route) :
    EndToEnd f setups J x k m q := by
  obtain ⟨sane, -⟩ := linked.sane fellows
  have run := (sane x).reachable
  have drafts : m.Drafts q := by
    obtain ⟨made, there, drafts⟩ := (sane x).worded.drafted registered
    have coherent := run.inv.coherent
    have same : (Made.call m).entry k ∈ (J x).engine.journal := called
    cases (coherent.made_of_mem there).symm.trans (coherent.made_of_mem same)
    exact drafts
  have upright := fellows.upright x.other
  have framing := fellows.framing x.other
  have borne : ∀ {D}, D ∈ (J x.other).askings f q.session → (setups x.other).framing.packet? D.frame = some q := by
    intro D mem
    rw [framing, Framing.packet?_encode (linked.asked fellows few registered mem), drafts.borne suits]
  have sound : ∀ {D}, D ∈ (J x.other).askings f q.session → D.Sound (setups x.other) := fun mem =>
    (sane x.other).sound _ (End.mem_askings.mp mem).1
  refine {
    drafts
    value := drafts.value
    once := linked.askings_le_one fellows few q.session
    arrives := linked.askings_eq_one fellows few registered
    runs := ?_
    returns := ?_
    further := linked.further fellows few registered }
  · intro D mem chain resolved
    obtain ⟨ds, runs, utters⟩ := (sound mem).runsOnce upright (borne mem) drafts.command resolved
    refine ⟨ds, runs, fun r c metadata responded drained => ?_⟩
    obtain ⟨p, wrote, number⟩ := utters r c metadata responded
    exact linked.arrives fellows drained (End.mem_askings.mp mem).1 (framing ▸ wrote) number
  · intro undisturbed later first split
    have arrived : first ∈ (J x).answerings f q.session := split ▸ List.mem_concat_self
    obtain ⟨p, D, response, -, asking, utters⟩ := linked.whence fellows arrived
    obtain ⟨c, responded⟩ := (sound asking).respondedWith upright (borne asking) (framing.symm ▸ utters)
    have matched := linked.matched fellows few registered undisturbed split response
    have returns := run.returns few called registered ⟨_, drafts.body.trans drafts.payload⟩ undisturbed
      (linked.unsent_of_asking fellows few registered asking) matched
    refine ⟨D, asking, c, p, responded, response, responded.carried ▸ returns, Content.decoded, ?_⟩
    rintro code message rfl
    rfl

end

/-- Between two ends that are joined calls reach the other end and come back, whatever else is done at either end and in
    whatever order the frames arrive. A call sends its request out when it is first polled; one request arrives under its
    number, and it is served once, as its caller gave it; and the call comes back with what the first response bears that
    arrives, after which others change nothing. -/
theorem calls_reach_the_other_end (fellows : Fellows f setups) (linked : Linked setups J)
    (few : (J x).engine.issuer.drawn ≤ numbers) (called : .called k m ∈ (J x).engine.journal)
    (suits : f.layout.Suits m.route) : GoesOut (setups x) (J x).engine k ∧
      ∀ {q}, .registered k q ∈ (J x).engine.journal → EndToEnd f setups J x k m q := by
  obtain ⟨sane, -⟩ := linked.sane fellows
  exact ⟨(sane x).reachable.goes_out (sane x).plainly, fun registered =>
    linked.endToEnd fellows few registered called suits⟩

/-! ### Two ends that call each other -/

/-- Something is done at an end of its own accord, or a frame arrives there, by its place among those that were written
    at the other. -/
inductive Turn where
  | work (x : Side) (a : Act) (own : a.Own)
  | arrive (x : Side) (place : Nat)

/-- Takes a turn, if it can be taken. -/
def Joint.play (setups : Side → Setup) (J : Joint) : Turn → Joint
  | .work x a _ =>
    match act (setups x) 1 a (J x).engine with
    | .ok (_, t) => Function.update J x ((J x).turn t)
    | .error _ => J
  | .arrive x place =>
    match (J x.other).sent[place]? with
    | none => J
    | some frame =>
      if (frame :: (J x).arrived).Subperm (J x.other).sent then
        match act (setups x) 1 (.receive frame) (J x).engine with
        | .ok (_, t) => Function.update J x ((J x).take frame 1 t)
        | .error _ => J
      else J

theorem Linked.play (linked : Linked setups J) (turn : Turn) : Linked setups (J.play setups turn) := by
  cases turn with
  | work x a own =>
    rcases done : act (setups x) 1 a (J x).engine with halt | ⟨o, t⟩ <;> simp only [Joint.play, done]
    · exact linked
    · exact .work linked own done
  | arrive x place =>
    rcases found : (J x.other).sent[place]? with _ | frame <;> simp only [Joint.play, found]
    · exact linked
    split
    · rename_i honest
      rcases done : act (setups x) 1 (.receive frame) (J x).engine with halt | ⟨o, t⟩
      · exact linked
      · exact .arrive linked honest done
    · exact linked

theorem Linked.plays (linked : Linked setups J) (turns : List Turn) :
    Linked setups (turns.foldl (Joint.play setups) J) := by
  induction turns generalizing J with
  | nil => exact linked
  | cons turn rest ih => exact ih (linked.play turn)

/-- Responds with a value, and then with a fault. -/
def twofold : Program :=
  .respond (.ok (.value [42])) .empty fun _ => .respond (.ok (.fault .notSupported "no")) .empty fun _ => .done

def twofoldSetup : Setup := { numeric with router := { ids := [(7, [twofold])] } }

theorem twofold_upright : twofoldSetup.Upright := by
  have chains : ∀ {q chain}, twofoldSetup.router.resolve q = .ok chain → chain = [twofold] := fun resolved =>
    List.mem_singleton.mp (Router.mem_chains_of_resolve resolved)
  refine ⟨rfl, rfl, rfl, rfl, fun resolved handler mem => ?_, fun _ => .next .done, fun resolved => ?_⟩
  · rw [chains resolved] at mem
    obtain rfl := List.mem_singleton.mp mem
    exact .respond fun _ => .respond fun _ => .done
  · rw [chains resolved]
    decide

theorem twofold_fellows : Fellows numeric.framing fun _ => twofoldSetup := ⟨fun _ => rfl, fun _ => twofold_upright⟩

/-- Both ends call under the same number at once. At the near end the responses arrive in the other order. -/
def crossed : Joint :=
  [Turn.work .near (.startCall { route := .id 7, body := .ok [1] }) trivial,
    .work .far (.startCall { route := .id 7, body := .ok [2] }) trivial,
    .work .near (.pollCall 0 0) trivial, .work .far (.pollCall 0 0) trivial,
    .arrive .far 0, .arrive .near 2, .arrive .near 0, .arrive .near 1, .arrive .far 1, .arrive .far 0].foldl
      (Joint.play fun _ => twofoldSetup) fun _ => { engine := {} }

theorem linked_crossed : Linked (fun _ => twofoldSetup) crossed :=
  (Linked.start (fun _ => {}) (fun _ => {}) (fun _ => true) fun _ => rfl).plays _

def crossedResult : Side → Except Fault Bytes
  | .near => .error (.stated .notSupported "no" none)
  | .far => .ok [42]

/-- The message of a first call. -/
def Entry.message? : Entry → Option Outbound
  | .called 0 m => some m
  | _ => none

/-- The request of a first call. -/
def Entry.request? : Entry → Option Packet
  | .registered 0 q => some q
  | _ => none

theorem called_of_message {J : List Entry} {m : Outbound} (found : J.findSome? Entry.message? = some m) :
    .called 0 m ∈ J := by
  obtain ⟨e, mem, said⟩ := List.exists_of_findSome?_eq_some found
  unfold Entry.message? at said
  split at said
  · cases said
    exact mem
  · cases said

theorem registered_of_request {J : List Entry} {q : Packet} (found : J.findSome? Entry.request? = some q) :
    .registered 0 q ∈ J := by
  obtain ⟨e, mem, said⟩ := List.exists_of_findSome?_eq_some found
  unfold Entry.request? at said
  split at said
  · cases said
    exact mem
  · cases said

/-- Neither a call was given up or overdue, nor was the connection closed. -/
def calm (J : List Entry) : Bool := J.all fun e => match e with
  | .closed | .cancelled _ | .expired _ _ => false
  | _ => true

theorem undisturbed_of_calm {J : List Entry} (h : calm J = true) (k : Nat) : Undisturbed J k := by
  have calm := List.all_eq_true.mp h
  refine ⟨fun mem => ?_, fun mem => ?_, fun _ mem => ?_⟩ <;> cases calm _ mem

theorem crossed_calls_reach_the_other_end :
    (∃ q, .registered 0 q ∈ (crossed .near).engine.journal ∧ q.session = 1 ∧
      ((crossed .far).askings numeric.framing 1).length = 1 ∧
      Returns twofoldSetup (crossed .near).engine 0 (.error (.stated .notSupported "no" none))) ∧
    ∃ q, .registered 0 q ∈ (crossed .far).engine.journal ∧ q.session = 1 ∧
      ((crossed .near).askings numeric.framing 1).length = 1 ∧
      Returns twofoldSetup (crossed .far).engine 0 (.ok [42]) := by
  have both : ∀ x : Side, ∃ q, .registered 0 q ∈ (crossed x).engine.journal ∧ q.session = 1 ∧
      ((crossed x.other).askings numeric.framing 1).length = 1 ∧
      Returns twofoldSetup (crossed x).engine 0 (crossedResult x) := by
    intro x
    have message : ((crossed x).engine.journal.findSome? Entry.message?).map (·.route) = some (.id 7) := by
      cases x <;> decide +kernel
    have request : ((crossed x).engine.journal.findSome? Entry.request?).map
        (fun q => (q.session, (numeric.framing.encode q).toOption.isSome)) = some (1, true) := by
      cases x <;> decide +kernel
    obtain ⟨m, message, route⟩ := Option.map_eq_some_iff.mp message
    obtain ⟨q, request, fits⟩ := Option.map_eq_some_iff.mp request
    obtain ⟨number, fits⟩ := Prod.mk.inj fits
    have registered := registered_of_request request
    have few : (crossed x).engine.issuer.drawn ≤ numbers := by cases x <;> decide +kernel
    have suits : numeric.framing.layout.Suits m.route := route ▸ trivial
    have called := called_of_message message
    obtain ⟨-, ends⟩ := calls_reach_the_other_end twofold_fellows linked_crossed few called suits
    have ends := ends registered
    have drained : crossed.Drained x.other := by
      unfold Joint.Drained
      cases x <;> decide +kernel
    obtain ⟨frame, encoded⟩ := Option.isSome_iff_exists.mp fits
    have arrives := ends.arrives (eq_ok_of_toOption encoded) drained
    have undisturbed := undisturbed_of_calm (J := (crossed x).engine.journal) (by cases x <;> decide +kernel) 0
    have answered : (((crossed x).answerings numeric.framing 1).getLast?.bind fun D =>
        numeric.framing.response? D.frame).map (·.carried) = some (crossedResult x) := by
      cases x <;> decide +kernel
    -- The last arrival in the list is the first in time.
    rw [← number] at answered ⊢
    obtain ⟨p, response, carried⟩ := Option.map_eq_some_iff.mp answered
    obtain ⟨first, last, response⟩ := Option.bind_eq_some_iff.mp response
    obtain ⟨later, split⟩ := List.getLast?_eq_some_iff.mp last
    obtain ⟨D, -, c, p', responded, response', returns, -⟩ := ends.returns undisturbed split
    cases response.symm.trans response'
    rw [← responded.carried, carried] at returns
    exact ⟨q, registered, rfl, arrives, returns⟩
  exact ⟨both .near, both .far⟩

end Switchboard
