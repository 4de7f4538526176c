import Switchboard.Proofs.CallOutcome
import Switchboard.Proofs.Chains.Deliveries

/-! What becomes of the callbacks of an asynchronous call. A call that comes back with a fault never runs
    them; one that succeeds runs them once, as soon as its session has ended, or its wait has been polled
    after that. To run them is to give their request to the response filter and take a context along them, to the
    end. -/

namespace Switchboard

/-! ### Kinds of entries -/

/-- An asynchronous call was made. -/
def Entry.asks (ticket : Nat) : Entry → Bool
  | .calledAsync t _ _ => t == ticket
  | _ => false

/-- The callbacks of a call are run. -/
def Entry.delivers (ticket : Nat) : Entry → Bool
  | .delivered pending _ => pending.ticket == ticket
  | _ => false

/-- An asynchronous call came back to its caller. -/
def Entry.returns (ticket : Nat) : Entry → Bool
  | .returned t _ => t == ticket
  | _ => false

/-- An asynchronous call came back to its caller with success. -/
def Entry.accepts (ticket : Nat) : Entry → Bool
  | .returned t (.ok ()) => t == ticket
  | _ => false

/-- An asynchronous call came back to its caller with a fault. -/
def Entry.refuses (ticket : Nat) : Entry → Bool
  | .returned t (.error _) => t == ticket
  | _ => false

/-- Something was reported of a session. -/
def Entry.reports (n : UInt64) : Entry → Bool
  | .event e => e.session == some n
  | _ => false

section

variable {setup : Setup} {J : List Entry} {t : Nat}

/-- A session whose time was over had begun to wait. -/
theorem Coherent.waited (coherent : Coherent setup J) {request : Packet} {now : Nat} {made : Made}
    (first : EndedBy J t request (.expired t now)) (hmade : (account t J).made = some made) :
    ∃ limit began, made.message.timeout = some limit ∧ .began t began ∈ J ∧ began + limit.nanoseconds ≤ now := by
  obtain ⟨later, since, earlier, rfl, -⟩ := first
  obtain ⟨-, made', limit, began, hmade', timed, hbegan, late⟩ := coherent.admissible
  have extends' : (account t (since ++ .registered t request :: earlier)).Extends
      (account t (later ++ .expired t now :: (since ++ .registered t request :: earlier))) := by
    rw [List.append_cons later]
    exact extends_account _ _
  obtain rfl : made' = made := Option.some.inj ((extends'.made hmade').symm.trans hmade)
  exact ⟨limit, began, timed, List.mem_append_right _ (List.mem_cons_of_mem _ (mem_of_began hbegan)), late⟩

end

namespace Engine

/-! ### The balance of one call -/

/-- Only what belongs to one ticket is worth anything. -/
def Rates.only (ticket : Nat) (refusal success : Int) : Rates where
  refusal t := if t = ticket then refusal else 0
  success t := if t = ticket then success else 0

section

variable {t : Nat} {a b : Int}

theorem Rates.run_only {u : Nat} : (Rates.only t a b).run u = if u = t then a - b else 0 := by
  unfold Rates.run Rates.only
  dsimp only
  split <;> simp

theorem Rates.pledge_only {u : Nat} : (Rates.only t a b).pledge u = if u = t then a - b else 0 :=
  (Int.zero_add _).trans Rates.run_only

theorem Rates.story_only (J : List Entry) : (Rates.only t a b).story J =
    (a - b) * J.countP (·.delivers t) + b * J.countP (·.accepts t) + a * J.countP (·.refuses t) -
      a * J.countP (·.asks t) := by
  induction J with
  | nil => simp [Rates.story]
  | cons e J ih =>
    rw [Rates.story_cons, ih]
    simp only [List.countP_cons]
    cases e with
    | calledAsync u m callbacks =>
      by_cases h : u = t <;> simp [Rates.said, Rates.only, Entry.asks, Entry.delivers, Entry.accepts, Entry.refuses, h]
      ring
    | delivered pending p =>
      by_cases h : pending.ticket = t <;>
        simp [Rates.said, Rates.run_only, Entry.asks, Entry.delivers, Entry.accepts, Entry.refuses, h]
      ring
    | returned u result =>
      rcases result with fault | _ <;> by_cases h : u = t <;>
        simp [Rates.said, Rates.returned, Rates.only, Entry.asks, Entry.delivers, Entry.accepts, Entry.refuses, h] <;>
        ring
    | _ => simp [Rates.said, Rates.only, Entry.asks, Entry.delivers, Entry.accepts, Entry.refuses]

theorem Rates.seats_only (sessions : List (UInt64 × Session)) : (Rates.only t a b).seats sessions =
    (a - b) * (pledges sessions).countP (·.ticket == t) := by
  rw [Rates.seats_eq_sum]
  simp only [Rates.pledge_only]
  exact Rates.sum_of_ticket Pending.ticket (a - b) _

theorem Rates.hands_only (s : Engine) : (Rates.only t a b).hands (s.estate 0) =
    (a - b) * s.waits.countP (·.pending.ticket == t) := by
  have calls : (s.calls.map fun c => (Rates.only t a b).call c.ticket).sum = 0 := by simp [Rates.only]
  rw [Rates.hands_estate, calls, Int.zero_add]
  simp only [Rates.pledge_only]
  exact Rates.sum_of_ticket (fun v : Wait => v.pending.ticket) (a - b) _

end

variable {setup : Setup} {shared : Bool} {s u : Engine} {t : Nat}

/-- How many callbacks of a ticket wait or were run. -/
def runs (s : Engine) (t : Nat) : Nat :=
  s.waits.countP (·.pending.ticket == t) + (pledges s.table.entries).countP (·.ticket == t) +
    s.journal.countP (·.delivers t)

/-- An asynchronous call was refused, or its callbacks wait, or they were run. -/
theorem Reachable.balance (run : Reachable setup shared s) (few : s.issuer.drawn ≤ numbers)
    (used : setup.spawner ≠ .drop) (t : Nat) :
    s.journal.countP (·.accepts t) = s.runs t ∧
    s.journal.countP (·.refuses t) + s.runs t = s.journal.countP (·.asks t) := by
  have books : ∀ a b : Int, (Rates.only t a b).total s 0 = 0 := fun a b =>
    run.total_eq_zero few used (.inl rfl)
  have none : ∀ {a b mail pool}, (Rates.only t a b).packets mail pool = 0 := Int.zero_mul _
  -- The books are kept twice, once with a price on success alone and once on refusal alone.
  have accepted := books 0 1
  have refused := books 1 0
  unfold Rates.total at accepted refused
  rw [Rates.hands_only, Rates.seats_only, none, Rates.story_only] at accepted refused
  unfold runs
  constructor <;> omega

/-! ### Callbacks that wait -/

/-- A wait began at some time, or begins now. -/
def Starts (J : List Entry) (t now start : Nat) : Prop :=
  .began t start ∈ J ∨ (∀ time, .began t time ∉ J) ∧ start = now

/-- What comes of a wait when it is polled. -/
structure WaitPoll (setup : Setup) (inner : Inner) (s : Engine) (w : Wait) (now : Nat) : Prop where
  replied : ∀ {p}, .matched w.pending.ticket p ∈ s.journal → ∃ q t, q.toPacket = p ∧
    pollWait setup inner now w.pending.ticket s = deliver setup inner w.pending q t
  closed : ∀ {r}, EndedBy s.journal w.pending.ticket r .closed →
    ∃ q t, q.toPacket = w.pending.request.toPacket.faultReply .closedWaiting ∧
      pollWait setup inner now w.pending.ticket s = deliver setup inner w.pending q t
  expired : ∀ {r start}, Awaits s.journal w.pending.ticket r → Starts s.journal w.pending.ticket now start →
    start + w.limit.nanoseconds ≤ now →
    ∃ q t, q.toPacket = w.pending.request.toPacket.faultReply (.waitTimedOut w.limit) ∧
      pollWait setup inner now w.pending.ticket s = deliver setup inner w.pending q t
  undecided : ∀ {r start}, Awaits s.journal w.pending.ticket r → Starts s.journal w.pending.ticket now start →
    now < start + w.limit.nanoseconds →
    ∃ t, pollWait setup inner now w.pending.ticket s = .ok ((), t) ∧
      { w with deadline := some (start + w.limit.nanoseconds) } ∈ t.waits

theorem takeWait_of_mem {w : Wait} (inv : Inv setup s 0) (h : w ∈ s.waits) : takeWait w.pending.ticket s =
    .ok (some w, { s with waits := s.waits.filter fun w' => w'.pending.ticket != w.pending.ticket }) := by
  have found : s.waits.find? (fun w' => w'.pending.ticket == w.pending.ticket) = some w :=
    find_of_mem (fun w => w.pending.ticket) (inv.single_wait w.pending.ticket) h
  exact modifyGet_eq_ok.mpr (by rw [found])

theorem synthesize_eq (request : Packet) (fault : Fault) : ∃ p : Parcel, p.toPacket = request.faultReply fault ∧
    synthesize request fault s = .ok (p, { s with issuer := s.issuer.get.2 }) := by
  have done : synthesize request fault s = .ok
      ((s.issuer.get.1.edit (·.answer request .empty)).edit (·.carry (.ofFault fault)),
        { s with issuer := s.issuer.get.2 }) := rfl
  exact ⟨_, (synthesize_eq_ok done).1, done⟩

theorem exists_starts (J : List Entry) (t now : Nat) : ∃ start, Starts J t now start := by
  by_cases h : ∃ time, .began t time ∈ J
  · obtain ⟨start, h⟩ := h
    exact ⟨start, .inl h⟩
  · exact ⟨now, .inr ⟨fun time began => h ⟨time, began⟩, rfl⟩⟩

theorem beginWait_of_starts {w : Wait} {now start : Nat} (coherent : Coherent setup s.journal)
    (fits : w.deadline = (account w.pending.ticket s.journal).began.map (· + w.limit.nanoseconds))
    (starts : Starts s.journal w.pending.ticket now start) (waits : List Wait) :
    ∃ u, beginWait now w { s with waits } = .ok (start + w.limit.nanoseconds, u) ∧
      u.mail = s.mail ∧ u.table = s.table := by
  unfold beginWait
  rcases starts with began | ⟨fresh, rfl⟩
  · rw [coherent.began_of_mem began] at fits
    rw [fits]
    exact ⟨_, rfl, rfl, rfl⟩
  · have none : (account w.pending.ticket s.journal).began = none := by
      cases began : (account w.pending.ticket s.journal).began with
      | none => rfl
      | some time => exact absurd (mem_of_began began) (fresh time)
    rw [none] at fits
    rw [fits]
    exact ⟨_, rfl, rfl, rfl⟩

section

variable {inner : Inner} {w : Wait} {now deadline : Nat} {v : Engine}
  (taken : takeWait w.pending.ticket s = .ok (some w, u)) (begun : beginWait now w u = .ok (deadline, v))
include taken begun

theorem pollWait_replied {p : Parcel} (found : v.mail.lookup w.pending.ticket = some p) :
    pollWait setup inner now w.pending.ticket s = deliver setup inner w.pending p (v.unmail w.pending.ticket) := by
  unfold pollWait
  rw [bind_of_ok taken]
  dsimp only
  rw [bind_of_ok begun, bind_of_ok (takeMail_eq_ok.mpr ⟨found, rfl⟩)]

theorem pollWait_gone (unread : v.mail.lookup w.pending.ticket = none)
    (gone : v.table.holds w.pending.ticket = false) :
    ∃ q t, q.toPacket = w.pending.request.toPacket.faultReply .closedWaiting ∧
      pollWait setup inner now w.pending.ticket s = deliver setup inner w.pending q t := by
  obtain ⟨q, packet, made⟩ := synthesize_eq (s := v) w.pending.request.toPacket .closedWaiting
  refine ⟨q, { v with issuer := v.issuer.get.2 }, packet, ?_⟩
  unfold pollWait
  rw [bind_of_ok taken]
  dsimp only
  rw [bind_of_ok begun, bind_of_ok (takeMail_eq_ok.mpr ⟨unread, unmail_of_lookup unread⟩)]
  dsimp only
  rw [bind_of_ok (get_eq_ok.mpr ⟨rfl, rfl⟩)]
  simp only [gone, Bool.not_false, if_true]
  rw [bind_of_ok made]

theorem pollWait_expired (unread : v.mail.lookup w.pending.ticket = none)
    (held : v.table.holds w.pending.ticket = true) (late : deadline ≤ now) :
    ∃ q t, q.toPacket = w.pending.request.toPacket.faultReply (.waitTimedOut w.limit) ∧
      pollWait setup inner now w.pending.ticket s = deliver setup inner w.pending q t := by
  obtain ⟨q, packet, made⟩ := synthesize_eq
    (s := (v.note (.expired w.pending.ticket now)).strike w.pending.request.session)
    w.pending.request.toPacket (.waitTimedOut w.limit)
  refine ⟨q, { (v.note (.expired w.pending.ticket now)).strike w.pending.request.session with
    issuer := v.issuer.get.2 }, packet, ?_⟩
  unfold pollWait
  rw [bind_of_ok taken]
  dsimp only
  rw [bind_of_ok begun, bind_of_ok (takeMail_eq_ok.mpr ⟨unread, unmail_of_lookup unread⟩)]
  dsimp only
  rw [bind_of_ok (get_eq_ok.mpr ⟨rfl, rfl⟩)]
  simp only [held, Bool.not_true, Bool.false_eq_true, if_false, late, if_true]
  rw [bind_of_ok ((record_eq_ok (x := ())).mpr rfl), bind_of_ok (discard_eq_ok.mpr ⟨rfl, rfl⟩), bind_of_ok made]
  rfl

theorem pollWait_undecided (unread : v.mail.lookup w.pending.ticket = none)
    (held : v.table.holds w.pending.ticket = true) (early : now < deadline) :
    ∃ t, pollWait setup inner now w.pending.ticket s = .ok ((), t) ∧
      { w with deadline := some deadline } ∈ t.waits := by
  refine ⟨{ v with waits := v.waits ++ [{ w with deadline := some deadline }] }, ?_, by simp⟩
  unfold pollWait
  rw [bind_of_ok taken]
  dsimp only
  rw [bind_of_ok begun, bind_of_ok (takeMail_eq_ok.mpr ⟨unread, unmail_of_lookup unread⟩)]
  dsimp only
  rw [bind_of_ok (get_eq_ok.mpr ⟨rfl, rfl⟩)]
  simp only [held, Bool.not_true, Bool.false_eq_true, if_false, Nat.not_le_of_lt early]
  rfl

end

theorem waitPoll {w : Wait} (inv : Inv setup s 0) (h : w ∈ s.waits) (inner : Inner) (now : Nat) :
    WaitPoll setup inner s w now := by
  have fits : (Token.watching w).Fits (s.standing w.pending.ticket) := inv.fits _ (watching_mem_estate h)
  obtain ⟨-, time, -, listens⟩ := fits
  have taken := takeWait_of_mem inv h
  -- The wait begins now unless it began before; only its deadline depends on that.
  obtain ⟨first, starts⟩ := exists_starts s.journal w.pending.ticket now
  obtain ⟨u, begun, mail, table⟩ := beginWait_of_starts inv.coherent time starts _
  refine ⟨?_, ?_, ?_, ?_⟩
  · intro p matched
    obtain ⟨r, fate⟩ := inv.coherent.fate_of_matched matched
    cases listens with
    | handed q hfate hmail =>
      obtain ⟨rfl, rfl⟩ := Fate.replied.inj (hfate.symm.trans fate)
      refine ⟨q, _, rfl, pollWait_replied taken begun ?_⟩
      rw [mail]
      exact lookup_of_mail (s := s) hmail
    | awaiting hfate | closed hfate | removed hfate => cases hfate.symm.trans fate
  · intro r ended
    obtain ⟨unread, gone⟩ := inv.closed_off ended
    exact pollWait_gone taken begun (mail ▸ unread) (table ▸ gone)
  · intro r start awaits starts late
    obtain ⟨u, begun, mail, table⟩ := beginWait_of_starts inv.coherent time starts _
    obtain ⟨unread, held⟩ := inv.attending listens awaits
    exact pollWait_expired taken begun (mail ▸ unread) (table ▸ held) late
  · intro r start awaits starts early
    obtain ⟨u, begun, mail, table⟩ := beginWait_of_starts inv.coherent time starts _
    obtain ⟨unread, held⟩ := inv.attending listens awaits
    exact pollWait_undecided taken begun (mail ▸ unread) (table ▸ held) early

/-! ### Every asynchronous call -/

/-- The line breaks while a request is written: the connection is closed before the writing fails. -/
def breaking : Line where
  reactions _ _ := [.close]
  result _ _ := .error .closedWaiting

/-- Two callbacks that report; the first asks for the second before it does. -/
def chime (n : UInt64) : List Program :=
  [.next (.report { session := some n, who := "first", what := "rung", sight := .flag true } .done),
    .report { session := some n, who := "second", what := "rung", sight := .flag true } .done]

def torn : Engine :=
  actAll numeric 2
    [.callAsync { route := .id 7, body := .ok [1] } (chime 1), .callAsync { route := .id 7, body := .ok [2] } (chime 2)]
    { line := breaking }

end Engine
end Switchboard
