import Switchboard.Proofs.Engine.Reachable

/-! Replies and the calls they answer. A reply completes the call under whose number it comes, if it is the
    first to come while the call is registered; other responses have no effect on any call, and no response
    gets as far as the packet filters. -/

namespace Switchboard

/-! ### How calls are completed -/

/-- What callbacks are run with: the first reply to their request, or a packet made up here for a request
    that met no response. -/
inductive Delivery (J : List Entry) (pending : Pending) : Packet → Prop where
  | reply {p : Packet} (first : FirstReply J pending.ticket pending.request.toPacket p) : Delivery J pending p
  | closed (unanswered : ∀ p, .matched pending.ticket p ∉ J) :
    Delivery J pending (pending.request.toPacket.faultReply .closedWaiting)
  | expired (limit : Duration) (unanswered : ∀ p, .matched pending.ticket p ∉ J) :
    Delivery J pending (pending.request.toPacket.faultReply (.waitTimedOut limit))

/-- A fault that a call ends with when it met no response. -/
inductive Outbound.OwnFault (m : Outbound) : Fault → Prop where
  | unencodable {fault : Fault} (body : m.body = .error fault) : OwnFault m fault
  | refused : OwnFault m (.notSent m.route)
  | closed : OwnFault m (.notAnswered m.route)
  | expired (limit : Duration) : OwnFault m (.callTimedOut m.route limit)

/-- What a call comes back with: what the first reply to its request carries, or a fault of its own. -/
inductive Completion (J : List Entry) (ticket : Nat) (m : Outbound) : Except Fault Bytes → Prop where
  | reply {request p : Packet} (first : FirstReply J ticket request p) : Completion J ticket m p.carried
  | unwritten {fault : Fault} (unsent : .unsent ticket fault ∈ J) : Completion J ticket m (.error fault)
  | unanswered {fault : Fault} (own : m.OwnFault fault) (unmatched : ∀ p, .matched ticket p ∉ J) :
    Completion J ticket m (.error fault)

/-- Calls are completed by their own replies only, each at most once. -/
structure Correlated (J : List Entry) : Prop where
  delivered : ∀ {later pending p earlier}, J = later ++ .delivered pending p :: earlier → Delivery earlier pending p
  finished : ∀ {later ticket result earlier}, J = later ++ .finished ticket result :: earlier →
    ∃ m, .called ticket m ∈ earlier ∧ Completion earlier ticket m result
  /-- A session meets one response at most, and a call is completed once at most. -/
  once : ∀ ticket, J.countP (·.meets ticket) ≤ 1 ∧ J.countP (·.completes ticket) ≤ 1
  /-- What goes on to the packet filters is no response. -/
  screened : ∀ {p}, .screened p ∈ J → p.command ≠ .response

section

variable {setup : Setup} {J : List Entry} {t : Nat}

/-- A call whose session ended otherwise met no response. -/
theorem Coherent.unmatched (coherent : Coherent setup J) (other : ∀ r p, (account t J).fate ≠ .replied r p)
    (p : Packet) : .matched t p ∉ J := by
  intro h
  obtain ⟨r, fate⟩ := coherent.fate_of_matched h
  exact other r p fate

theorem Coherent.delivery (coherent : Coherent setup J) {pending : Pending} {p : Packet}
    (delivers : (account pending.ticket J).Delivers pending p) : Delivery J pending p := by
  obtain ⟨m, -, request, what⟩ := delivers
  cases fate : (account pending.ticket J).fate with
  | unregistered | awaiting r =>
    rw [fate] at what
    exact what.elim
  | replied r q =>
    rw [fate] at what request
    cases request
    obtain rfl : p = q := what
    exact .reply (coherent.firstReply fate)
  | closed r | removed r =>
    rw [fate] at what request
    cases request
    obtain rfl := what
    exact .closed (coherent.unmatched (by simp [fate]))
  | expired r now =>
    rw [fate] at what request
    cases request
    obtain ⟨limit, -, rfl⟩ := what
    exact .expired limit (coherent.unmatched (by simp [fate]))

theorem Coherent.completion (coherent : Coherent setup J) {m : Outbound} {result : Except Fault Bytes}
    (concludes : Concludes J t m result) : Completion J t m result := by
  cases concludes with
  | unencodable fault body fate eq =>
    rw [eq]
    exact .unanswered (.unencodable body) (coherent.unmatched (by simp [fate]))
  | refused encodes closed fate eq =>
    rw [eq]
    exact .unanswered .refused (coherent.unmatched (by simp [fate]))
  | unsent fault encodes failed registered eq =>
    rw [eq]
    exact .unwritten (mem_of_failed failed)
  | expired encodes written request now limit fate timed eq =>
    rw [eq]
    exact .unanswered (.expired limit) (coherent.unmatched (by simp [fate]))
  | decided encodes written began decides =>
    cases fate : (account t J).fate with
    | unregistered | awaiting r | expired r now =>
      rw [fate] at decides
      exact decides.elim
    | replied r p =>
      rw [fate] at decides
      obtain rfl := decides
      exact .reply (coherent.firstReply fate)
    | closed r | removed r =>
      rw [fate] at decides
      obtain rfl := decides
      exact .unanswered .closed (coherent.unmatched (by simp [fate]))

end

/-! ### Responses that arrive -/

namespace Engine

variable {setup : Setup} {shared : Bool} {s u : Engine}

theorem reportAll_state {events : List Event} {x : Unit} (h : reportAll events s = .ok (x, u)) :
    ∃ reports : List Event, u = { s with journal := reports.map Entry.event ++ s.journal } := by
  induction events generalizing s with
  | nil =>
    obtain ⟨-, rfl⟩ := pure_eq_ok.mp h
    exact ⟨[], rfl⟩
  | cons e rest ih =>
    obtain ⟨_, v, hrecord, h⟩ := bind_eq_ok.mp h
    obtain rfl := record_eq_ok.mp hrecord
    obtain ⟨reports, rfl⟩ := ih h
    exact ⟨reports ++ [e], by simp [note]⟩

/-- Data filters only report. -/
theorem filterData_state {filters : List (Bytes → Filtered Bytes)} {data : Bytes}
    {r : Except Fault (Option Bytes)} (h : filterData filters data s = .ok (r, u)) :
    ∃ reports : List Event, u = { s with journal := reports.map Entry.event ++ s.journal } := by
  induction filters generalizing data s with
  | nil =>
    obtain ⟨-, rfl⟩ := pure_eq_ok.mp h
    exact ⟨[], rfl⟩
  | cons filter rest ih =>
    unfold filterData at h
    obtain ⟨_, v, hreport, h⟩ := bind_eq_ok.mp h
    obtain ⟨reports, rfl⟩ := reportAll_state hreport
    rcases hverdict : (filter data).verdict with fault | verdict
    · simp only [hverdict] at h
      obtain ⟨-, rfl⟩ := pure_eq_ok.mp h
      exact ⟨reports, rfl⟩
    · cases verdict with
      | pass =>
        simp only [hverdict] at h
        obtain ⟨more, rfl⟩ := ih h
        exact ⟨more ++ reports, by simp⟩
      | stop =>
        simp only [hverdict] at h
        obtain ⟨-, rfl⟩ := pure_eq_ok.mp h
        exact ⟨reports, rfl⟩

/-- A frame that stands for a response is taken as a reply, whatever the packet filters and the router are. -/
theorem receiveWith_response (inner : Inner) {data octets : Bytes} {p : Parcel} (replies : setup.hook = .replies)
    (filtered : filterData setup.dataFilters data s = .ok (.ok (some octets), u))
    (decoded : s.issuer.get.1.unframe setup.framing octets = (p, .ok ())) (response : p.command = .response) :
    receiveWith setup inner data s =
      (acceptReply setup inner p >>= fun _ => pure (.ok ())) { u with issuer := s.issuer.get.2 } := by
  -- Filters only report, so the packet taken is the next one of the pool as it was before them.
  have issuer : u.issuer = s.issuer := by
    obtain ⟨reports, rfl⟩ := filterData_state filtered
    rfl
  have taken : takeParcel u = .ok (s.issuer.get.1, { u with issuer := s.issuer.get.2 }) :=
    takeParcel_eq_ok.mpr ⟨by rw [issuer], by rw [issuer]⟩
  unfold receiveWith
  rw [bind_of_ok filtered]
  dsimp only
  rw [bind_of_ok taken]
  simp only [decoded]
  unfold welcome intercept
  simp only [replies, response, if_true, bind_assoc, pure_bind]

/-- A response under a number that nothing is registered under goes back to the pool. -/
theorem acceptReply_missing {inner : Inner} {p : Parcel} (missing : s.table.find p.session = none) :
    acceptReply setup inner p s =
      .ok ((), { s with issuer := s.issuer.put p, journal := .unmatched p.toPacket :: s.journal }) := by
  unfold acceptReply
  rw [bind_of_ok (takeSession_eq_ok.mpr ⟨missing, rfl⟩), SessionTable.erase_of_find missing]
  rfl

/-- Replies find the calls that they answer. On any run calls and callbacks are completed by their own first
    replies, and a frame that stands for a response is nothing but a reply: what it answers is looked up, and
    where nothing is registered under its number it goes back to the pool and nothing else changes. -/
theorem replies_find_their_calls (replies : setup.hook = .replies) (run : Reachable setup shared s) :
    Correlated s.journal ∧
    ∀ (depth : Nat) {data octets u p}, filterData setup.dataFilters data s = .ok (.ok (some octets), u) →
      s.issuer.get.1.unframe setup.framing octets = (p, .ok ()) → p.command = .response →
      receiveWith setup (nested setup depth) data s =
        (acceptReply setup (nested setup depth) p >>= fun _ => pure (.ok ())) { u with issuer := s.issuer.get.2 } ∧
      (s.table.find p.session = none → ∃ reports : List Event,
        receiveWith setup (nested setup depth) data s = .ok (.ok (), { s with
          issuer := s.issuer.get.2.put p
          journal := .unmatched p.toPacket :: (reports.map Entry.event ++ s.journal) })) := by
  have coherent := run.inv.coherent
  refine ⟨⟨?_, ?_, ?_, ?_⟩, ?_⟩
  · intro later pending p earlier heq
    rw [heq] at coherent
    exact coherent.drop.2.delivery coherent.admissible.2
  · intro later ticket result earlier heq
    rw [heq] at coherent
    obtain ⟨-, m, made, concludes⟩ := coherent.admissible
    exact ⟨m, mem_of_made made, coherent.drop.2.completion concludes⟩
  · intro ticket
    refine ⟨coherent.countP_meets ticket, ?_⟩
    -- A ticket is held once, and what ended its call counts as holding it.
    have ended : (account ticket s.journal).ends.length ≤ 1 := by
      have tally := run.inv.tally ticket
      have : (s.standing ticket).account = account ticket s.journal := rfl
      unfold Standing.stakes at tally
      rw [this] at tally
      split at tally <;> omega
    rw [ends_eq_filter, ← List.countP_eq_length_filter] at ended
    refine (List.countP_mono_left fun e _ completes => ?_).trans ended
    simp [Entry.finals, completes]
  · intro p h
    obtain ⟨later, earlier, heq⟩ := List.append_of_mem h
    rw [heq] at coherent
    exact coherent.admissible replies
  · intro depth data octets u p filtered decoded response
    have taken := receiveWith_response (nested setup depth) replies filtered decoded response
    refine ⟨taken, fun missing => ?_⟩
    obtain ⟨reports, rfl⟩ := filterData_state filtered
    rw [taken, bind_of_ok (acceptReply_missing (by exact missing))]
    exact ⟨reports, rfl⟩

/-! ### A run with replies out of order -/

/-- Routes are numbers, so that frames are short. -/
def numeric : Setup := { framing := { layout := .id } }

/-- A response of two octets under a small number. -/
def shortReply (session first second : UInt8) : Bytes :=
  [0, 0, 0, 26, 2, 0, 0, 0, 0, 0, 0, 0, 0, 0, 0, session, 0, 0, 0, 2, 0, 0, 0, 7, first, second]

/-- Two calls whose replies come in the other order, one of them twice, and one that nobody asked for. -/
def shuffled : Engine :=
  actAll numeric 1
    [.startCall { route := .id 7, body := .ok [1] }, .startCall { route := .id 7, body := .ok [2] },
      .pollCall 0 0, .pollCall 0 1, .receive (shortReply 2 22 22), .receive (shortReply 9 99 99),
      .receive (shortReply 1 11 11), .receive (shortReply 1 33 33), .pollCall 5 0, .pollCall 5 1] {}

/-- A call came back with some octets. -/
def cameBackWith (ticket : Nat) (octets : Bytes) (J : List Entry) : Bool :=
  J.any fun e => match e with
    | .finished t (.ok result) => t == ticket && result == octets
    | _ => false

theorem reachable_shuffled : Reachable numeric false shuffled :=
  (Reachable.start {} {} {} true fun _ => rfl).actAll 1 _

theorem shuffled_replies_find_their_calls :
    (Correlated shuffled.journal ∧
      cameBackWith 0 [11, 11] shuffled.journal = true ∧ cameBackWith 1 [22, 22] shuffled.journal = true) ∧
    ∃ p, p.command = .response ∧ ∃ reports : List Event,
      receiveWith numeric (nested numeric 0) (shortReply 9 99 99) shuffled = .ok (.ok (), { shuffled with
        issuer := shuffled.issuer.get.2.put p
        journal := .unmatched p.toPacket :: (reports.map Entry.event ++ shuffled.journal) }) := by
  obtain ⟨correlated, frames⟩ := replies_find_their_calls rfl reachable_shuffled
  have decoded : shuffled.issuer.get.1.unframe numeric.framing (shortReply 9 99 99) =
      ((shuffled.issuer.get.1.unframe numeric.framing (shortReply 9 99 99)).1, .ok ()) :=
    Prod.ext rfl (eq_ok_of_toOption (by decide +kernel))
  have response : (shuffled.issuer.get.1.unframe numeric.framing (shortReply 9 99 99)).1.command = .response := by
    decide +kernel
  refine ⟨⟨correlated, by decide +kernel, by decide +kernel⟩, _, response, ?_⟩
  exact (frames 0 rfl decoded response).2 (Option.isNone_iff_eq_none.mp (by decide +kernel))

end Engine
end Switchboard
