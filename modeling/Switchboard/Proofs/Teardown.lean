import Switchboard.Proofs.Callbacks
import Switchboard.Proofs.Engine.Underway

/-! What closing does to a connection. It ends every session: callbacks are run once, with a closing fault,
    before it comes back; whoever waits finds the session gone when it is polled next. After that nothing is
    registered any more, whatever the callbacks did in the meantime. -/

namespace Switchboard

/-- Whoever decodes the packet that a failure is reported with finds its code and its description. -/
theorem Packet.carried_faultReply (request : Packet) (fault : Fault) :
    (request.faultReply fault).carried = .error (.stated fault.code fault.message none) :=
  carried_carry_fault _ fault

/-- Callbacks of a call were run on a packet, from beginning to end, after the journal had told so much, and that was
    the only time in all that it has come to. -/
structure Pending.RanOnce (setup : Setup) (pending : Pending) (p : Packet) (past J : List Entry) : Prop where
  never : past.countP (·.delivers pending.ticket) = 0
  once : J.countP (·.delivers pending.ticket) = 1
  ran : ∃ later earlier, J = later ++ .delivered pending p :: earlier ∧ past <:+ earlier ∧ pending.Ran setup p earlier J

theorem Pending.RanOnce.told {setup : Setup} {pending : Pending} {p : Packet} {past J : List Entry}
    (ran : pending.RanOnce setup p past J) : .delivered pending p ∈ J := by
  obtain ⟨later, earlier, split, -⟩ := ran.ran
  exact split ▸ List.mem_append_right later List.mem_cons_self

theorem Pending.RanOnce.mono {setup : Setup} {pending : Pending} {p : Packet} {past J K : List Entry}
    (ran : pending.RanOnce setup p past J) (later : J <:+ K) (once : K.countP (·.delivers pending.ticket) = 1) :
    pending.RanOnce setup p past K := by
  obtain ⟨never, -, after, before, split, since, ran⟩ := ran
  refine ⟨never, once, ?_⟩
  obtain ⟨more, journal⟩ := id later
  exact ⟨more ++ after, before, by rw [← journal, split, List.append_assoc], since, ran.mono later⟩

namespace Engine

variable {setup : Setup} {shared : Bool} {inner : Inner} {s t u v : Engine} {H K : Hands}

/-! ### Callbacks are run once -/

/-- Callbacks that someone holds or that are in the table were not run, and none were run twice. -/
theorem Inv.countP_delivers (inv : Inv setup s H) (t : Nat) :
    (s.estate H).holders t + (pledges (s.standing t).sessions).length + s.journal.countP (·.delivers t) ≤ 1 := by
  have tally := inv.tally t
  -- To run callbacks ends their ticket, and a ticket has one end at most.
  have delivered : s.journal.countP (·.delivers t) ≤ (s.standing t).account.ends.length := by
    change _ ≤ (account t s.journal).ends.length
    rw [ends_eq_filter, ← List.countP_eq_length_filter]
    refine List.countP_mono_left fun e _ delivers => ?_
    cases e with
    | delivered pending p => simpa [Entry.finals, Entry.completes, Entry.delivers] using delivers
    | _ => cases delivers
  unfold Standing.stakes at tally
  split at tally <;> omega

theorem Inv.countP_delivers_of_mem (inv : Inv setup s H) {pending : Pending} {p : Packet}
    (h : .delivered pending p ∈ s.journal) : s.journal.countP (·.delivers pending.ticket) = 1 := by
  have once := inv.countP_delivers pending.ticket
  have : 0 < s.journal.countP (·.delivers pending.ticket) := List.countP_pos_iff.mpr ⟨_, h, beq_self_eq_true _⟩
  omega

theorem Inv.countP_delivers_of_pledge (inv : Inv setup s H) {n : UInt64} {pending : Pending}
    (h : (n, .callback pending) ∈ s.table.entries) : s.journal.countP (·.delivers pending.ticket) = 0 := by
  have once := inv.countP_delivers pending.ticket
  have pledged : pending ∈ pledges (s.standing pending.ticket).sessions :=
    mem_pledges.mpr ⟨n, SessionTable.mem_sessionsOf.mpr ⟨h, rfl⟩⟩
  have := List.length_pos_of_mem pledged
  omega

theorem Inv.countP_delivers_of_wait (inv : Inv setup s H) {w : Wait} (h : w ∈ s.waits) :
    s.journal.countP (·.delivers w.pending.ticket) = 0 := by
  have once := inv.countP_delivers w.pending.ticket
  have held : 1 ≤ (s.estate H).holders w.pending.ticket :=
    Hands.one_le_holders (watching_mem_estate h) (beq_self_eq_true _)
  omega

/-- Callbacks that the journal tells of only since a state were run since. -/
theorem Fulfilled.ranOnce (fulfilled : Fulfilled setup s t) (inv : Inv setup t H) {pending : Pending} {p : Packet}
    (never : s.journal.countP (·.delivers pending.ticket) = 0) (told : .delivered pending p ∈ t.journal) :
    pending.RanOnce setup p s.journal t.journal := by
  refine ⟨never, inv.countP_delivers_of_mem told, ?_⟩
  obtain ⟨later, earlier, split⟩ := List.append_of_mem told
  have untold : .delivered pending p ∉ s.journal := fun mem =>
    List.countP_eq_zero.mp never _ mem (beq_self_eq_true pending.ticket)
  rcases before_or_since fulfilled.grown split with before | since
  · -- Nothing was told of them before.
    exact absurd (before.mem List.mem_cons_self) untold
  · exact ⟨later, earlier, split, since, fulfilled.ran split since⟩

theorem deliver_told (sound : inner.Sound setup) {pending : Pending} {p : Parcel} {x : Unit}
    (h : deliver setup inner pending p s = .ok (x, t)) : .delivered pending p.toPacket ∈ t.journal := by
  obtain ⟨es, hes⟩ := (deliver_moves sound h 0).journal
  rw [hes]
  exact List.mem_append_right es List.mem_cons_self

/-! ### Closing -/

theorem endAll_told (sound : inner.Sound setup) {sessions : List (UInt64 × Session)} {x : Unit}
    (h : endAll setup inner sessions s = .ok (x, t)) : ∀ pending ∈ pledges sessions,
      .delivered pending (pending.request.toPacket.faultReply .closedWaiting) ∈ t.journal := by
  induction sessions generalizing s with
  | nil => exact fun _ h => absurd h List.not_mem_nil
  | cons e rest ih =>
    obtain ⟨n, entry⟩ := e
    cases entry with
    | waiting ticket listening => exact ih h
    | callback pending =>
      obtain ⟨p, u, hsynth, h⟩ := bind_eq_ok.mp h
      obtain ⟨packet, rfl⟩ := synthesize_eq_ok hsynth
      obtain ⟨_, v, hdeliver, h⟩ := bind_eq_ok.mp h
      refine List.forall_mem_cons.mpr ⟨?_, ih h⟩
      -- Nothing is taken back while the others are ended.
      obtain ⟨es, hes⟩ := (endAll_moves sound h 0).journal
      rw [hes, ← packet]
      exact List.mem_append_right es (deliver_told sound hdeliver)

/-- What closing comes to: the journal tells of it, and of the callbacks that it ran. -/
theorem closeWith_told (sound : inner.Sound setup) {x : Unit} (h : closeWith setup inner s = .ok (x, t)) :
    (∃ es, t.journal = es ++ .closed :: s.journal) ∧ ∀ {n pending}, (n, .callback pending) ∈ s.table.entries →
      .delivered pending (pending.request.toPacket.faultReply .closedWaiting) ∈ t.journal := by
  unfold closeWith at h
  obtain ⟨_, u, hrec, h⟩ := bind_eq_ok.mp h
  obtain rfl := record_eq_ok.mp hrec
  obtain ⟨sessions, v, hdrain, h⟩ := bind_eq_ok.mp h
  obtain ⟨rfl, rfl⟩ := Prod.mk.injEq .. ▸ modifyGet_eq_ok.mp hdrain
  refine ⟨(endAll_moves sound h 0).journal, fun {n pending} mem => endAll_told sound h pending ?_⟩
  exact mem_pledges.mpr ⟨n, (setup.sweep_perm s.table.entries).mem_iff.mpr mem⟩

theorem Inv.closing (inv : Inv setup s H) {n : UInt64} {entry : Session} (mem : (n, entry) ∈ s.table.entries)
    (es : List Entry) : ∃ r, r.session = n ∧ EndedBy (es ++ .closed :: s.journal) entry.ticket r .closed := by
  obtain ⟨r, fate, number, -⟩ := inv.found (inv.keyed.find_of_mem mem)
  have awaits : Awaits s.journal entry.ticket r := by
    have told := told_fate s.journal entry.ticket
    rwa [show (account entry.ticket s.journal).fate = _ from fate] at told
  exact ⟨r, number, (awaits.ended rfl).append⟩

/-- What closing a connection in the state `s` has done when it comes back. -/
structure TornDown (setup : Setup) (s t : Engine) : Prop where
  told : .closed ∈ t.journal
  shut : t.table.closed = true ∧ t.table.entries = []
  calls : t.calls = s.calls
  waits : s.waits <+: t.waits
  callbacks : ∀ {n pending}, (n, .callback pending) ∈ s.table.entries → ∃ p,
    pending.RanOnce setup p s.journal t.journal ∧
      p.carried = .error (.stated .sessionClosed "connection closed before reply" none)
  /-- No other chain was begun and not ended, or ended twice. -/
  even : abroad t.journal = abroad s.journal
  ended : ∀ {n entry}, (n, entry) ∈ s.table.entries → ∃ r, r.session = n ∧ EndedBy t.journal entry.ticket r .closed

theorem Underway.tornDown (run : Underway setup shared s H) (few : s.issuer.drawn ≤ numbers) (depth : Nat) :
    Ends Forced (closeWith setup (nested setup depth)) s fun _ t => TornDown setup s t := by
  have keeps := closeWith_keeps (d := {}) (nested_forced setup depth) s (run.orderly few)
  rcases result : closeWith setup (nested setup depth) s with halt | ⟨x, t⟩
  · exact .of_stop result (keeps.of_error result)
  have steady := keeps.of_ok result
  have after := run.moves (closeWith_moves (nested_sound setup depth) result H)
  obtain ⟨⟨es, journal⟩, delivered⟩ := closeWith_told (nested_sound setup depth) result
  have told : .closed ∈ t.journal := journal ▸ List.mem_append_right es List.mem_cons_self
  have closed : t.table.closed = true := after.sealed.shut told
  have beats : Beats setup s [] t [] := closeWith_rounds (nested_round setup depth) s x t result []
  refine .of_eq result ⟨told, ⟨closed, (after.inv.shut closed).1⟩, steady.calls, steady.waits, ?_, beats.abroad_eq, ?_⟩
  · intro n pending mem
    exact ⟨_, beats.fulfilled.ranOnce after.inv (run.inv.countP_delivers_of_pledge mem) (delivered mem),
      Packet.carried_faultReply _ _⟩
  · intro n entry mem
    exact journal ▸ run.inv.closing mem es

theorem Reachable.closed {depth : Nat} {x : Unit} (run : Reachable setup shared s)
    (h : closeWith setup (nested setup depth) s = .ok (x, t)) : Reachable setup shared t := by
  have done : Engine.act setup depth .close s = .ok (.none, t) := bind_eq_ok.mpr ⟨x, t, h, rfl⟩
  exact run.act depth .close done

/-! ### Those who wait -/

/-- In the state `u`, at any time after the connection was closed in the state `s`, those who waited then learn of
    it when they are polled, and unless they are polled or given up they are still there. -/
structure Bereaved (setup : Setup) (s u : Engine) : Prop where
  callbacks : ∀ {n pending}, (n, .callback pending) ∈ s.table.entries → ∃ p,
    pending.RanOnce setup p s.journal u.journal ∧
      p.carried = .error (.stated .sessionClosed "connection closed before reply" none)
  calls : ∀ {n listening c}, (n, .waiting c.ticket listening) ∈ s.table.entries → c ∈ u.calls → ∀ depth now,
    ∃ v, pollCall setup (nested setup depth) now c.ticket u = .ok (some (.error (.notAnswered c.message.route)), v)
  waits : ∀ {n listening w}, (n, .waiting w.pending.ticket listening) ∈ s.table.entries → w ∈ u.waits → ∀ depth now,
    u.journal.countP (·.delivers w.pending.ticket) = 0 ∧
    Ends Forced (pollWait setup (nested setup depth) now w.pending.ticket) u fun _ v =>
      abroad v.journal = abroad u.journal ∧ ∃ p, w.pending.RanOnce setup p u.journal v.journal ∧
        p.carried = .error (.stated .sessionClosed "connection closed before reply" none)
  stay : ∀ {depth a o v}, act setup depth a u = .ok (o, v) →
    (∀ c ∈ u.calls, ¬a.turnsTo c.ticket → c ∈ v.calls) ∧
    ∀ w ∈ u.waits, ¬a.turnsTo w.pending.ticket → w ∈ v.waits

theorem Reachable.bereaved (run : Reachable setup shared u) (few : u.issuer.drawn ≤ numbers) (torn : TornDown setup s t)
    (later : t.journal <:+ u.journal) : Bereaved setup s u := by
  have inv := run.inv
  obtain ⟨es, journal⟩ := id later
  have ended : ∀ {n entry}, (n, entry) ∈ s.table.entries → ∃ r, EndedBy u.journal entry.ticket r .closed := by
    intro n entry mem
    obtain ⟨r, -, ended⟩ := torn.ended mem
    exact ⟨r, journal ▸ ended.append⟩
  refine ⟨?_, ?_, ?_, ?_⟩
  · intro n pending mem
    obtain ⟨p, ran, carried⟩ := torn.callbacks mem
    exact ⟨p, ran.mono later (inv.countP_delivers_of_mem (later.mem ran.told)), carried⟩
  · intro n listening c mem there depth now
    obtain ⟨r, ended⟩ := ended mem
    -- A call whose session was in the table has been sent.
    refine (laterPoll inv there (fun created => ?_) _ now).closed ended
    obtain ⟨-, -, hphase⟩ : (Token.calling c).Fits (u.standing c.ticket) := inv.fits _ (calling_mem_estate there)
    simp only [created] at hphase
    have fate : (account c.ticket u.journal).fate = .closed r := fate_of_closed inv.coherent ended
    cases fate.symm.trans hphase.1
  · intro n listening w mem there depth now
    obtain ⟨r, ended⟩ := ended mem
    obtain ⟨q, u', packet, polled⟩ := (waitPoll inv there (nested setup depth) now).closed ended
    refine ⟨inv.countP_delivers_of_wait there, ?_⟩
    have sure : Sure (· = w.pending.ticket) (pollWait setup (nested setup depth) now w.pending.ticket) :=
      pollWait_sure (nested_forced setup depth) now rfl
    rcases result : pollWait setup (nested setup depth) now w.pending.ticket u with halt | ⟨x, v⟩
    · exact .of_stop result ((sure u (run.underway.orderly few)).of_error result)
    have done : Engine.act setup depth (.pollWait now w.pending.ticket) u = .ok (.none, v) :=
      bind_eq_ok.mpr ⟨x, v, result, rfl⟩
    have delivered := deliver_told (nested_sound setup depth) (polled ▸ result)
    have beats : Beats setup u [] v [] :=
      pollWait_rounds (nested_round setup depth) now w.pending.ticket u x v result []
    have ran := beats.fulfilled.ranOnce (run.act depth _ done).inv (inv.countP_delivers_of_wait there) delivered
    exact .of_eq result ⟨beats.abroad_eq, _, ran, packet ▸ Packet.carried_faultReply _ _⟩
  · intro depth a o v done
    have spared := (act_sure setup depth a u (run.underway.orderly few)).of_ok done
    exact ⟨spared.calls, spared.waits⟩

/-! ### From then on -/

/-- What holds of a connection that was closed, from the state `v` on: its table stays empty, closing it again does
    nothing, calls fail without a frame being written, and nothing is registered or called back any more. -/
structure Shut (setup : Setup) (shared : Bool) (v : Engine) : Prop where
  empty : v.table.closed = true ∧ v.table.entries = []
  again : ∀ inner, closeWith setup inner v = .ok ((), v.note .closed)
  calls : ∀ {c}, c ∈ v.calls → c.phase = .created → ∀ inner now, ∃ fault issuer,
    (c.message.Encodes → fault = .notSent c.message.route) ∧
    pollCall setup inner now c.ticket v = .ok (some (.error fault), { v with
      calls := v.calls.filter fun c' => c'.ticket != c.ticket, issuer
      journal := .finished c.ticket (.error fault) :: v.journal })
  asks : ∀ inner m callbacks, ∃ fault issuer,
    (∀ {p q frame}, (v.drafted m).load (m.body.map .value) = (p, .ok ()) → p.frame setup.framing = (q, .ok frame) →
      (m.timeout.isSome → setup.spawner = .ambient → v.hosted = true) → fault = .notSent m.route) ∧
    callAsync setup inner m callbacks v = .ok (.error fault, { v with
      tickets := v.tickets + 1, issuer
      journal := .returned v.tickets (.error fault) :: .calledAsync v.tickets m callbacks :: v.journal })
  later : ∀ {u K}, Underway setup shared u K → v.journal <:+ u.journal → ∀ ticket, v.tickets ≤ ticket →
    (∀ r, .registered ticket r ∉ u.journal) ∧ u.journal.countP (·.delivers ticket) = 0

theorem closeWith_of_closed (empty : v.table.closed = true ∧ v.table.entries = []) (inner : Inner) :
    closeWith setup inner v = .ok ((), v.note .closed) := by
  have drained : drain (v.note .closed) = .ok ([], v.note .closed) := by
    refine modifyGet_eq_ok.mpr (Prod.ext empty.2 ?_)
    have same : ({ entries := [], closed := true } : SessionTable) = v.table := by
      rw [← empty.1, ← empty.2]
    change { v.note .closed with table := { entries := [], closed := true } } = _
    rw [same]
    rfl
  unfold closeWith
  rw [bind_of_ok ((record_eq_ok (x := ())).mpr rfl), bind_of_ok drained, (setup.sweep_perm []).eq_nil]
  rfl

theorem expectReply_of_closed (closed : v.table.closed = true) (m : Outbound) (pending : Pending) (frame : Bytes) :
    expectReply setup inner m pending frame v =
      .ok (.error (.notSent m.route), { v with issuer := v.issuer.put pending.request }) := by
  unfold expectReply
  rw [bind_of_ok (register_of_closed closed)]
  rfl

theorem request_of_closed (setup : Setup) (closed : v.table.closed = true) (inner : Inner) (m : Outbound)
    (callbacks : List Program) (ticket : Nat) : ∃ fault issuer,
    (∀ {p q frame}, (v.drafted m).load (m.body.map .value) = (p, .ok ()) → p.frame setup.framing = (q, .ok frame) →
      (m.timeout.isSome → setup.spawner = .ambient → v.hosted = true) → fault = .notSent m.route) ∧
    request setup inner m callbacks ticket v = .ok (.error fault, { v with issuer }) := by
  unfold request
  rw [bind_of_ok (get_eq_ok.mpr ⟨rfl, rfl⟩)]
  split
  · rename_i nobody
    obtain ⟨timed, ambient, unhosted⟩ := nobody
    refine ⟨.noRuntime, v.issuer, fun _ _ someone => ?_, rfl⟩
    rw [someone timed ambient] at unhosted
    cases unhosted
  rw [bind_of_ok (issue_drafted v m v.calls)]
  rcases hload : (v.drafted m).load (m.body.map .value) with ⟨p, fault | _⟩
  · refine ⟨fault, _, fun loaded => ?_, rfl⟩
    cases loaded
  rcases hframe : p.frame setup.framing with ⟨q, fault | frame⟩ <;> dsimp only <;> rw [hframe]
  · refine ⟨fault, _, fun loaded framed => ?_, rfl⟩
    obtain rfl := (Prod.mk.inj loaded).1
    cases hframe.symm.trans framed
  · exact ⟨.notSent m.route, _, fun _ _ _ => rfl, expectReply_of_closed (by exact closed) m _ frame⟩

theorem Underway.shut (run : Underway setup shared v K) (closed : .closed ∈ v.journal) : Shut setup shared v := by
  have inv := run.inv
  have shut := run.sealed.shut closed
  have empty := (inv.shut shut).1
  refine ⟨⟨shut, empty⟩, closeWith_of_closed ⟨shut, empty⟩, ?_, ?_, ?_⟩
  · intro c mem created inner now
    rcases body : c.message.body with fault | octets
    · obtain ⟨issuer, polled⟩ := pollCall_unencodable inv inner now mem created body
      refine ⟨fault, issuer, ?_, polled⟩
      rintro ⟨octets, encoded⟩
      cases body.symm.trans encoded
    · obtain ⟨issuer, polled⟩ := pollCall_refused inv inner now mem created ⟨octets, body⟩ shut
      exact ⟨_, issuer, fun _ => rfl, polled⟩
  · intro inner m callbacks
    obtain ⟨fault, issuer, reason, refused⟩ := request_of_closed setup
      (v := { v with tickets := v.tickets + 1, journal := .calledAsync v.tickets m callbacks :: v.journal })
      shut inner m callbacks v.tickets
    refine ⟨fault, issuer, reason, ?_⟩
    unfold callAsync
    rw [bind_of_ok (openTicket_eq_ok.mpr ⟨rfl, rfl⟩), bind_of_ok ((record_eq_ok (x := ())).mpr rfl)]
    exact (bind_of_ok refused).trans rfl
  · rintro u K' reached ⟨es, journal⟩ ticket unknown
    -- Nothing was registered between the two states, and nothing for such a ticket before.
    obtain ⟨since, before, heq⟩ := List.append_of_mem closed
    have whole : u.journal = (es ++ since) ++ .closed :: before := by rw [← journal, heq, List.append_assoc]
    have quiet : ∀ e ∈ es, e.registers = false := fun e he =>
      reached.sealed.hushed whole e (List.mem_append_left since he)
    have unregistered : (account ticket u.journal).fate.request? = none := by
      rw [← journal, request?_append quiet, show account ticket v.journal = {} from inv.fresh ticket unknown]
      rfl
    refine ⟨fun r registered => ?_, List.countP_eq_zero.mpr fun e mem delivers => ?_⟩
    · cases (reached.inv.coherent.request_of_mem registered).symm.trans unregistered
    · cases e with
      | delivered pending p =>
        obtain rfl := beq_iff_eq.mp delivers
        obtain ⟨later, earlier, heq⟩ := List.append_of_mem mem
        have coherent := reached.inv.coherent
        rw [heq] at coherent unregistered
        obtain ⟨-, m, -, request, -⟩ := coherent.admissible
        rw [List.append_cons] at unregistered
        cases ((extends_account _ earlier).request request).symm.trans unregistered
      | _ => cases delivers

/-- Closing ends every session, wherever it is done and whatever the callbacks do while it is: callbacks have run
    once when it comes back, those who wait learn of it from their next poll, and from then on the connection is
    shut for good. -/
theorem closing_is_final (run : Underway setup shared s H) (few : s.issuer.drawn ≤ numbers) (depth : Nat) :
    (Ends Forced (closeWith setup (nested setup depth)) s fun _ t => TornDown setup s t ∧
      ∀ {u}, Reachable setup shared u → u.issuer.drawn ≤ numbers → t.journal <:+ u.journal → Bereaved setup s u) ∧
    ∀ {v K}, Underway setup shared v K → .closed ∈ v.journal → Shut setup shared v := by
  refine ⟨(run.tornDown few depth).mono fun _ t torn => ⟨torn, ?_⟩, Underway.shut⟩
  exact fun reached few later => reached.bereaved few torn later

/-! ### A run that is closed from within -/

/-- A call, callbacks and a wait are pending. The callbacks close the connection themselves, make another call and
    take in a late reply. -/
def laden : Engine :=
  actAll numeric 2
    [.startCall { route := .id 7, body := .ok [1] }, .pollCall 0 0,
      .callAsync { route := .id 7, body := .ok [2] }
        [.close (.callAsync { route := .id 7, body := .ok [4] } [] fun _ => .receive (shortReply 1 11 11) fun _ => .done)],
      .callAsync { route := .id 7, body := .ok [3], timeout := some ⟨5⟩ } []] {}

theorem reachable_laden : Reachable numeric false laden :=
  (Reachable.start {} {} {} true fun _ => rfl).actAll 2 _

/-- The callbacks draw a number for the call that they make. -/
theorem laden_closing_is_final : laden.table.entries.length = 3 ∧ laden.issuer.drawn = 3 ∧
    ∃ t, closeWith numeric (nested numeric 2) laden = .ok ((), t) ∧ t.issuer.drawn = 4 ∧ TornDown numeric laden t ∧
      Bereaved numeric laden t ∧ Shut numeric false t := by
  refine ⟨by decide +kernel, by decide +kernel, ?_⟩
  have underway : Underway numeric false laden 0 := reachable_laden.underway
  obtain ⟨closing, after⟩ := closing_is_final (s := laden) underway (by decide +kernel) 2
  have ends : (closeWith numeric (nested numeric 2) laden).toOption.any
      (fun x => x.2.issuer.drawn = 4) = true := by decide +kernel
  rcases result : closeWith numeric (nested numeric 2) laden with halt | ⟨x, t⟩
  · rw [result] at ends
    cases ends
  rw [result] at ends
  obtain ⟨torn, bereaved⟩ := closing.of_ok result
  have reached : Reachable numeric false t := reachable_laden.closed result
  have drawn : t.issuer.drawn = 4 := of_decide_eq_true ends
  have few : t.issuer.drawn ≤ numbers := by
    unfold numbers
    omega
  exact ⟨t, rfl, drawn, torn, bereaved reached few List.suffix_rfl, after reached.underway torn.told⟩

end Engine
end Switchboard
