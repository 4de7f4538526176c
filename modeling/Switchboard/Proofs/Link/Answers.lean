import Switchboard.Proofs.CallOutcome
import Switchboard.Proofs.PendingSessions
import Switchboard.Proofs.Link.Joint

/-! A call at the end where it was made. The first response that is heard under the number of its request answers it,
    unless the call was given up, its time was over, or the connection was closed; it comes back with what that response
    carries, and the responses that are heard later change nothing. -/

namespace Switchboard

/-- Neither its caller, nor the end of its time, nor the closing of the connection ended a call. -/
structure Undisturbed (J : List Entry) (k : Nat) : Prop where
  unclosed : .closed ∉ J
  kept : .cancelled k ∉ J
  inTime : ∀ now, .expired k now ∉ J

/-- A call was made under a ticket. -/
def Entry.calls (k : Nat) : Entry → Bool
  | .called t _ => t == k
  | _ => false

namespace Engine

variable {setup : Setup} {shared : Bool} {s t : Engine} {k : Nat} {m : Outbound} {p q : Packet}

/-! ### Calls in progress -/

/-- The call with a ticket is worth one until it ends. -/
def Rates.calling (k : Nat) : Rates where
  call := fun u => if u = k then 1 else 0

theorem Rates.pledge_calling (ticket : Nat) : (Rates.calling k).pledge ticket = 0 := rfl

theorem Rates.hands_calling (s : Engine) : (Rates.calling k).hands (s.estate 0) = s.calls.countP (·.ticket == k) := by
  have calls : (s.calls.map fun c => (Rates.calling k).call c.ticket).sum = 1 * s.calls.countP (·.ticket == k) :=
    Rates.sum_of_ticket Call.ticket 1 _
  rw [Rates.hands_estate, calls]
  simp [Rates.pledge_calling]

theorem Rates.seats_calling (sessions : List (UInt64 × Session)) : (Rates.calling k).seats sessions = 0 := by
  simp [Rates.seats_eq_sum, Rates.pledge_calling]

/-- As long as a call has not ended, the journal owes what it is worth. -/
theorem Rates.story_calling {J : List Entry} (kept : .cancelled k ∉ J) (unfinished : ∀ result, .finished k result ∉ J) :
    (Rates.calling k).story J = -(J.countP (·.calls k) : Int) := by
  induction J with
  | nil => rfl
  | cons e J ih =>
    have ih := ih (fun mem => kept (List.mem_cons_of_mem e mem)) fun result mem =>
      unfinished result (List.mem_cons_of_mem e mem)
    rw [Rates.story_cons, ih, List.countP_cons]
    cases e with
    | called u m' =>
      by_cases same : u = k <;> simp [Rates.said, Rates.calling, Entry.calls, same]
    | cancelled u =>
      have other : u ≠ k := fun same => kept (same ▸ List.mem_cons_self)
      simp [Rates.said, Rates.calling, Entry.calls, other]
    | finished u result =>
      have other : u ≠ k := fun same => unfinished result (same ▸ List.mem_cons_self)
      simp [Rates.said, Rates.calling, Entry.calls, other]
    | returned u result =>
      cases result <;> simp [Rates.said, Rates.returned, Rates.calling, Entry.calls]
    | _ => simp [Rates.said, Rates.run, Rates.calling, Entry.calls]

/-- A call that was made and not given up is in progress until it comes back. -/
theorem Reachable.in_progress (run : Reachable setup shared s) (few : s.issuer.drawn ≤ numbers)
    (called : .called k m ∈ s.journal) (kept : .cancelled k ∉ s.journal) :
    (∃ c ∈ s.calls, c.ticket = k) ∨ ∃ result, .finished k result ∈ s.journal := by
  -- The books give the call one place: in progress, given up or finished.
  by_contra neither
  obtain ⟨idle, unfinished⟩ := not_or.mp neither
  have books : (Rates.calling k).books s 0 = 0 := run.books_eq_zero few (fun _ => ⟨rfl, fun _ => rfl⟩) (.inl rfl)
  unfold Rates.books Rates.total Rates.packets at books
  rw [Rates.hands_calling, Rates.seats_calling,
    Rates.story_calling kept fun result mem => unfinished ⟨result, mem⟩] at books
  have packet : (Rates.calling k).packet = 0 := rfl
  have none : s.calls.countP (·.ticket == k) = 0 :=
    List.countP_eq_zero.mpr fun c mem same => idle ⟨c, mem, beq_iff_eq.mp same⟩
  have one : 1 ≤ s.journal.countP (·.calls k) :=
    List.countP_pos_iff.mpr ⟨_, called, beq_self_eq_true k⟩
  rw [packet, none] at books
  omega

/-! ### Requests that go out -/

theorem send_ends (setup : Setup) (inner : Inner) (line : s.line = {}) (p : Parcel) :
    ∃ q result t, send setup inner p s = .ok ((q, result), t) ∧ ∃ es, t.journal = es ++ s.journal := by
  unfold send
  rcases p.frame setup.framing with ⟨q, fault | frame⟩
  · exact ⟨q, .error fault, s, rfl, [], rfl⟩
  · dsimp only
    rw [bind_of_ok (write_eq line frame)]
    exact ⟨q, .ok (), s.utter frame, rfl, [.wrote frame], rfl⟩

theorem awaitReply_ends (now : Nat) (c : Call) (session : UInt64) (deadline : Option (Nat × Duration)) (s : Engine) :
    ∃ r t, awaitReply now c session deadline s = .ok (r, t) := by
  cases unread : s.mail.lookup c.ticket with
  | some p => exact ⟨_, awaitReply_replied unread⟩
  | none =>
    cases held : s.table.holds c.ticket with
    | false => exact ⟨_, awaitReply_gone unread held⟩
    | true =>
      cases late : passed now deadline with
      | some limit => exact ⟨_, awaitReply_expired unread held late⟩
      | none => exact ⟨_, awaitReply_undecided unread held late⟩

/-- The first poll of a call registers its request, if its message can be encoded and the connection is not closed. -/
def GoesOut (setup : Setup) (s : Engine) (k : Nat) : Prop :=
  ∀ c ∈ s.calls, c.ticket = k → c.phase = .created → c.message.Encodes → s.table.closed = false →
    s.issuer.drawn < numbers → ∀ depth now, ∃ r t q,
      pollCall setup (nested setup depth) now k s = .ok (r, t) ∧ .registered k q ∈ t.journal

theorem Reachable.goes_out (run : Reachable setup shared s) (plainly : s.Plainly) : GoesOut setup s k := by
  rintro c mem rfl created encodes isOpen few depth now
  have inv := run.inv
  obtain ⟨octets, body⟩ := encodes
  obtain ⟨p, loaded⟩ : ∃ p, (s.drafted c.message).load (c.message.body.map .value) = (p, .ok ()) := by
    rw [body]
    exact ⟨_, rfl⟩
  have number : p.session = (s.drafted c.message).session := (Parcel.load_eq_ok loaded).2
  have free : s.table.find p.session = none := number ▸ (run.numbered few.le).next_free inv few
  rw [pollCall_created inv mem created]
  unfold sendCall
  rw [bind_of_ok (issue_drafted _ _ _)]
  simp only [loaded]
  rw [bind_of_ok (register_of_open (by exact isOpen) (by exact free))]
  dsimp only
  obtain ⟨u, hu⟩ : ∃ u, u = enroll (.waiting c.ticket true) p.toPacket
    { s with calls := s.calls.filter fun c' => c'.ticket != c.ticket,
             issuer := (s.issuer.issue .request c.message.route c.message.metadata).2 } := ⟨_, rfl⟩
  have registered : .registered c.ticket p.toPacket ∈ u.journal := hu ▸ List.mem_cons_self
  have line : u.line = {} := hu ▸ plainly.line
  rw [← hu]
  obtain ⟨q, result, v, sent, es, hes⟩ := send_ends setup (nested setup depth) line p
  have kept : .registered c.ticket p.toPacket ∈ v.journal := hes ▸ List.mem_append_right es registered
  rw [bind_of_ok sent]
  cases result with
  | error fault =>
    have struck : .registered c.ticket p.toPacket ∈ (((v.note (.unsent c.ticket fault)).note
        (.finished c.ticket (.error fault))).strike p.session).journal := by
      obtain ⟨es, hes, -⟩ := strike_journal (s := (v.note (.unsent c.ticket fault)).note
        (.finished c.ticket (.error fault))) (n := p.session)
      rw [hes]
      exact List.mem_append_right es (List.mem_cons_of_mem _ (List.mem_cons_of_mem _ kept))
    exact ⟨_, _, p.toPacket, rfl, struck⟩
  | ok _ =>
    obtain ⟨r, t, ended⟩ := awaitReply_ends now c p.session
      (c.message.timeout.map fun limit => (now + limit.nanoseconds, limit))
      (note (.began c.ticket now) { v with issuer := v.issuer.put q })
    have moves : Moves setup (note (.began c.ticket now) { v with issuer := v.issuer.put q }) _ t 0 :=
      awaitReply_moves ended 0
    obtain ⟨es, hes⟩ := moves.journal
    exact ⟨r, t, p.toPacket, ended, hes ▸ List.mem_append_right es (List.mem_cons_of_mem _ kept)⟩

/-! ### The first response -/

theorem Reachable.registered_unique (run : Reachable setup shared s) (few : s.issuer.drawn ≤ numbers) {k' : Nat}
    {q' : Packet} (registered : .registered k q ∈ s.journal) (registered' : .registered k' q' ∈ s.journal)
    (number : q'.session = q.session) : k' = k ∧ q' = q := by
  have coherent := run.inv.coherent
  have request := coherent.request_of_mem registered
  have request' := coherent.request_of_mem registered'
  obtain rfl := (run.numbered few).distinct request' request number
  exact ⟨rfl, Option.some.inj (request'.symm.trans request)⟩

theorem intercepts_iff {e : Entry} {n : UInt64} : e.intercepts n = true ↔ ∃ p, e.heard? = some p ∧ p.session = n := by
  cases e <;> simp [Entry.intercepts, Entry.heard?]

/-- Nothing is heard under a number where nothing intercepts it. -/
theorem heard_eq_nil {J : List Entry} {n : UInt64} (none : ∀ e ∈ J, e.intercepts n = false) :
    (heard J).filter (·.session = n) = [] := by
  refine List.filter_eq_nil_iff.mpr fun p mem same => ?_
  obtain ⟨e, there, said⟩ := mem_heard.mp mem
  have intercepts := intercepts_iff.mpr ⟨p, said, of_decide_eq_true same⟩
  rw [none e there] at intercepts
  cases intercepts

/-- No response is heard under the number of a request before the request is registered. -/
theorem Reachable.unheard (run : Reachable setup shared s) (few : s.issuer.drawn ≤ numbers) (caused : Caused s.journal)
    {later earlier : List Entry} (heq : s.journal = later ++ .registered k q :: earlier) :
    (heard earlier).filter (·.session = q.session) = [] := by
  refine heard_eq_nil fun e mem => Bool.eq_false_iff.mpr fun intercepts => ?_
  obtain ⟨p, said, number⟩ := intercepts_iff.mp intercepts
  obtain ⟨between, before, rfl⟩ := List.append_of_mem mem
  obtain ⟨k', q', registered, same⟩ := caused (later ++ .registered k q :: between) e before p (by simp [heq]) said
  have mine : .registered k q ∈ s.journal := heq ▸ by simp
  have theirs : .registered k' q' ∈ s.journal := heq ▸ by simp [registered]
  -- What is heard was asked for before, and under this number only by this request.
  obtain ⟨rfl, rfl⟩ := run.registered_unique few mine theirs (same.trans number)
  have coherent := run.inv.coherent
  rw [heq] at coherent
  have fate : (account k' (between ++ e :: before)).fate = .unregistered := coherent.admissible
  have told := told_fate (between ++ e :: before) k'
  rw [fate] at told
  exact told q' (by simp [registered])

/-- While a request awaits its reply nothing was heard under its number. -/
theorem Reachable.unheard_of_awaiting (run : Reachable setup shared s) (few : s.issuer.drawn ≤ numbers)
    (caused : Caused s.journal) (fate : (account k s.journal).fate = .awaiting q) :
    (heard s.journal).filter (·.session = q.session) = [] := by
  have told := told_fate s.journal k
  rw [fate] at told
  obtain ⟨since, earlier, heq, none⟩ := told
  have unheard := run.unheard few caused heq
  have coherent := run.inv.coherent
  rw [heq] at coherent ⊢
  have quiet := heard_eq_nil (coherent.unintercepted none)
  have nothing : heard [.registered k q] = [] := rfl
  rw [heard_append, ← List.singleton_append, heard_append, nothing, List.filter_append, quiet, List.nil_append,
    List.nil_append, unheard]

/-- The first response that is heard under the number of a request meets its session, if nothing else ended it. -/
theorem Reachable.first_answer (run : Reachable setup shared s) (few : s.issuer.drawn ≤ numbers)
    (caused : Caused s.journal) (registered : .registered k q ∈ s.journal) (undisturbed : Undisturbed s.journal k)
    (sent : ∀ fault, .unsent k fault ∉ s.journal) {later : List Packet}
    (first : (heard s.journal).filter (·.session = q.session) = later ++ [p]) : .matched k p ∈ s.journal := by
  have coherent := run.inv.coherent
  have request := coherent.request_of_mem registered
  have told := told_fate s.journal k
  cases fate : (account k s.journal).fate with
  | unregistered =>
    rw [fate] at request
    cases request
  | closed r =>
    rw [fate] at told
    exact absurd told.mem undisturbed.unclosed
  | expired r now =>
    rw [fate] at told
    exact absurd told.mem (undisturbed.inTime now)
  | removed r =>
    rcases (run.tidy few k).reason r fate with failed | cancelled
    · obtain ⟨fault, said⟩ := Option.isSome_iff_exists.mp failed
      exact absurd (mem_of_failed said) (sent fault)
    · exact absurd (cancelled_mem_ends.mp cancelled) undisturbed.kept
  | awaiting r =>
    rw [fate] at request
    cases request
    -- While it awaited its reply nothing was heard, but something was.
    rw [run.unheard_of_awaiting few caused fate] at first
    exact absurd first (by simp)
  | replied r p' =>
    obtain ⟨-, number, later', since, earlier, heq, none⟩ := coherent.firstReply fate
    rw [fate] at request
    cases request
    -- The journal falls into what came after the reply, the reply, and what came before, where nothing was heard.
    have split : s.journal = (later' ++ .matched k p' :: since) ++ .registered k q :: earlier := by simp [heq]
    have unheard := run.unheard few caused split
    have quiet := heard_eq_nil fun e mem => (none e mem).2
    have nothing : heard [.registered k q] = [] := rfl
    have met : (heard [.matched k p']).filter (·.session = q.session) = [p'] := by
      simp [heard, Entry.heard?, number]
    have whole : s.journal = later' ++ ([.matched k p'] ++ (since ++ ([.registered k q] ++ earlier))) := heq
    rw [whole, heard_append, heard_append, heard_append, heard_append, nothing, List.nil_append, List.filter_append,
      List.filter_append, List.filter_append, met, quiet, unheard, List.append_nil, List.append_nil] at first
    obtain ⟨-, same⟩ := List.append_inj' first rfl
    cases same
    exact heq ▸ by simp

/-! ### What comes back -/

/-- A call comes back with a result: it is in progress or it has come back, it comes back with nothing else, and as soon
    as it is polled. -/
structure Returns (setup : Setup) (s : Engine) (k : Nat) (result : Except Fault Bytes) : Prop where
  there : (∃ c ∈ s.calls, c.ticket = k) ∨ .finished k result ∈ s.journal
  finished : ∀ r, .finished k r ∈ s.journal → r = result
  polled : (∃ c ∈ s.calls, c.ticket = k) → ∀ depth now, ∃ t,
    pollCall setup (nested setup depth) now k s = .ok (some result, t)

/-- A call whose request met a response comes back with what that carries. -/
theorem Reachable.returns (run : Reachable setup shared s) (few : s.issuer.drawn ≤ numbers)
    (called : .called k m ∈ s.journal) (registered : .registered k q ∈ s.journal) (encodes : m.Encodes)
    (undisturbed : Undisturbed s.journal k) (sent : ∀ fault, .unsent k fault ∉ s.journal)
    (matched : .matched k p ∈ s.journal) : Returns setup s k p.carried := by
  have inv := run.inv
  have coherent := inv.coherent
  have finished : ∀ r, .finished k r ∈ s.journal → r = p.carried := by
    intro r mem
    obtain ⟨later, earlier, heq⟩ := List.append_of_mem mem
    have said := coherent
    rw [heq] at said undisturbed sent
    obtain ⟨ended, m', made, concludes⟩ := said.admissible
    have justified : Justified (.finished k r :: earlier) := (heq ▸ run.justified few).drop
    have before : ∀ {e}, e ∈ earlier → e ∈ s.journal := fun mem =>
      heq ▸ List.mem_append_right later (List.mem_cons_of_mem _ mem)
    obtain rfl : m' = m := by
      have there : (Made.call m).entry k ∈ s.journal := called
      cases (coherent.made_of_mem (before (mem_of_made made))).symm.trans (coherent.made_of_mem there)
      rfl
    have conclusion := said.drop.2.conclusion justified ended made concludes
    rw [← heq] at undisturbed sent
    cases conclusion with
    | unencodable body =>
      obtain ⟨octets, body'⟩ := encodes
      cases body.symm.trans body'
    | refused _ closed => exact absurd (before closed) undisturbed.unclosed
    | unsent _ _ unsent => exact absurd (before unsent) (sent _)
    | replied _ _ first =>
      obtain ⟨r, fate⟩ := coherent.fate_of_matched matched
      obtain ⟨r', fate'⟩ := coherent.fate_of_matched (before first.mem)
      cases fate.symm.trans fate'
      rfl
    | closed _ _ first => exact absurd (before first.mem) undisturbed.unclosed
    | expired _ _ first => exact absurd (before first.mem) (undisturbed.inTime _)
  refine ⟨?_, finished, ?_⟩
  · rcases run.in_progress few called undisturbed.kept with there | ⟨r, mem⟩
    · exact .inl there
    · exact .inr (finished r mem ▸ mem)
  · rintro ⟨c, mem, rfl⟩ depth now
    have waiting : c.phase ≠ .created := by
      intro created
      have fate := (inv.fits _ (calling_mem_estate mem)).unregistered created
      have request := coherent.request_of_mem registered
      change (account c.ticket s.journal).fate = _ at fate
      rw [fate] at request
      cases request
    exact (laterPoll inv mem waiting (nested setup depth) now).replied matched

/-! ### Further responses -/

/-- After a response was heard under the number of a request, others under it go back to the pool, and nothing else
    changes. -/
theorem Reachable.further (run : Reachable setup shared s) (few : s.issuer.drawn ≤ numbers) (upright : setup.Upright)
    (caused : Caused s.journal) (registered : .registered k q ∈ s.journal) (before : p ∈ heard s.journal)
    (number : p.session = q.session) {depth : Nat} {frame : Bytes} {r : Except Fault Unit} {p' : Packet}
    (response : setup.framing.response? frame = some p') (number' : p'.session = q.session)
    (h : receiveWith setup (nested setup depth) frame s = .ok (r, t)) : ∃ parcel : Parcel, t = { s with
      issuer := s.issuer.get.2.put parcel
      journal := .unmatched parcel.toPacket :: s.journal } := by
  have inv := run.inv
  have passed : filterData setup.dataFilters frame s = .ok (.ok (some frame), s) := by
    rw [upright.dataFilters]
    rfl
  obtain ⟨borne, command⟩ := Framing.response?_eq_some.mp response
  have decoded : setup.framing.decode frame = .ok p' := eq_ok_of_toOption borne
  have unframed : s.issuer.get.1.unframe setup.framing frame =
      ({ toPacket := p', scratch := s.issuer.get.1.scratch }, .ok ()) := by
    unfold Parcel.unframe
    rw [decoded]
  have missing : s.table.find p'.session = none := by
    cases found : s.table.find p'.session with
    | none => rfl
    | some entry =>
      rw [number'] at found
      obtain rfl := (run.numbered few).own inv (inv.coherent.request_of_mem registered) found
      obtain ⟨r', fate, same, -⟩ := inv.found found
      -- A session under the number would still await its reply, and one was heard.
      have unheard := run.unheard_of_awaiting few caused fate
      exact absurd (decide_eq_true (number.trans same.symm)) (List.filter_eq_nil_iff.mp unheard p before)
  rw [receiveWith_response (nested setup depth) upright.hook passed unframed command,
    bind_of_ok (acceptReply_missing (by exact missing))] at h
  obtain ⟨-, rfl⟩ := pure_eq_ok.mp h
  exact ⟨_, rfl⟩

end Engine
end Switchboard
