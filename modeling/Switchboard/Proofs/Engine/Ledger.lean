import Mathlib.Algebra.BigOperators.Group.Multiset.Basic
import Mathlib.Tactic.Ring
import Switchboard.Proofs.Engine.Numbers
import Switchboard.Proofs.Engine.Order

/-! The ledger of a connection. Packets, calls, and asynchronous calls that failed or succeeded are four
    things that no move makes or loses without a trace: each can be counted in what is in hand, in the
    table, in the mail, in the pool's counts and in the journal. Everything is given a worth that depends
    on how much each of the four is taken to be worth, and the sum stays the same. Only a call that is given
    up, or whose request is not written, when its reply was handed over loses a packet; the journal tells of
    it, so what was lost has its place in the books too. -/

namespace Switchboard

/-! ### Replies that are lost -/

/-- How many replies were handed over to whoever waits for them, by what an account says. -/
def Account.handed (a : Account) : Nat :=
  match a.fate, a.made with
  | .replied _ _, some made => if made.Waits then 1 else 0
  | _, _ => 0

/-- How many replies a journal tells were lost: they had been handed over when the call was given up or the
    failure to write its request came out. -/
def forfeits : List Entry → Nat
  | [] => 0
  | .cancelled t :: J | .unsent t _ :: J => (account t J).handed + forfeits J
  | _ :: J => forfeits J

theorem Account.handed_of_fate {a : Account} (other : ∀ r p, a.fate ≠ .replied r p) : a.handed = 0 := by
  unfold handed
  split
  · rename_i fate _
    exact absurd fate (other _ _)
  · rfl

theorem Account.handed_of_not_waits {a : Account} {made : Made} (hmade : a.made = some made) (patient : ¬made.Waits) :
    a.handed = 0 := by
  unfold handed
  rw [hmade]
  split
  · rename_i heq
    obtain rfl := Option.some.inj heq
    exact if_neg patient
  · rfl

theorem forfeits_of_handed {J : List Entry} {t : Nat} (none : (account t J).handed = 0) :
    (account t J).handed + forfeits J = forfeits J := by
  rw [none, Nat.zero_add]

/-- Whoever waits for a reply finds as many as were handed over. -/
theorem Standing.Listens.length_mail {st : Standing} {t : Nat} {r : Packet} (listens : st.Listens t r) {made : Made}
    (hmade : st.account.made = some made) (waits : made.Waits) : st.mail.length = st.account.handed := by
  cases listens with
  | handed q fate mail =>
    unfold Account.handed
    rw [mail, fate, hmade]
    exact (if_pos waits).symm
  | awaiting fate _ mail | closed fate mail | removed fate mail =>
    rw [mail, Account.handed_of_fate (by simp [fate])]
    rfl

namespace Engine

/-- What each of the things that are counted is worth. -/
structure Rates where
  /-- A packet that is out of the pool. -/
  packet : Int := 0
  /-- A call, until it ends. -/
  call : Nat → Int := fun _ => 0
  /-- An asynchronous call, until it is refused or its callbacks are run. -/
  refusal : Nat → Int := fun _ => 0
  /-- An asynchronous call that was accepted, less one whose callbacks wait or were run. -/
  success : Nat → Int := fun _ => 0

namespace Rates

variable (w : Rates)

/-- Running the callbacks of a call ends it. -/
def run (ticket : Nat) : Int := w.refusal ticket - w.success ticket

/-- Callbacks that wait hold the packet of their request. -/
def pledge (ticket : Nat) : Int := w.packet + w.run ticket

def returned (ticket : Nat) : Except Fault Unit → Int
  | .ok () => w.success ticket
  | .error _ => w.refusal ticket

def hand : Token → Int
  | .parcel => w.packet
  | .calling c | .sending c _ | .ending c _ _ => w.call c.ticket
  | .watching v => w.pledge v.pending.ticket
  | .asked t _ _ => w.refusal t
  | .placed _ pending => w.success pending.ticket
  | .promised _ pending => w.packet + w.refusal pending.ticket
  | .answering t result => w.returned t result
  | .owed pending => w.pledge pending.ticket

def seat : Session → Int
  | .waiting _ _ => 0
  | .callback pending => w.pledge pending.ticket

def said : Entry → Int
  | .called t _ => -w.call t
  | .calledAsync t _ _ => -w.refusal t
  | .cancelled t | .finished t _ => w.call t
  | .delivered pending _ => w.run pending.ticket
  | .returned t result => w.returned t result
  | _ => 0

/-- The worth of what is in hand. -/
def hands (H : Hands) : Int := (H.map w.hand).sum

/-- The worth of sessions. -/
def seats (sessions : List (UInt64 × Session)) : Int := (sessions.map fun e => w.seat e.2).sum

/-- The worth of a journal. -/
def story (J : List Entry) : Int := (J.map w.said).sum

/-- The worth of the mail and of the packets that are out of the pool. -/
def packets (mail : List (Nat × Parcel)) (pool : PacketPool) : Int :=
  w.packet * (mail.length + pool.puts - pool.gets)

/-- The worth of everything. -/
def total (s : Engine) (H : Hands) : Int :=
  w.hands (s.estate H) + w.seats s.table.entries + w.packets s.mail s.issuer.pool + w.story s.journal

/-- The worth of everything and of the replies that were lost. -/
def books (s : Engine) (H : Hands) : Int := w.total s H + w.packet * forfeits s.journal

/-- Where waits are dropped nothing is worth anything that a dropped wait loses. -/
def Spared (setup : Setup) : Prop := setup.spawner = .drop → w.packet = 0 ∧ ∀ t, w.refusal t = w.success t

end Rates

section

variable {setup : Setup} {w : Rates} {s s' : Engine} {H K F taken given : Hands} {t : Nat} {n : UInt64}
  {pool : PacketPool}

namespace Rates

@[simp] theorem hands_zero : w.hands 0 = 0 := rfl

@[simp] theorem hands_cons {k : Token} : w.hands (k ::ₘ H) = w.hand k + w.hands H := by
  simp [hands]

@[simp] theorem hands_singleton {k : Token} : w.hands {k} = w.hand k := by simp [hands]

@[simp] theorem hands_add : w.hands (H + K) = w.hands H + w.hands K := by simp [hands]

@[simp] theorem story_cons {e : Entry} {J : List Entry} : w.story (e :: J) = w.said e + w.story J := by
  simp [story]

theorem seats_append {sessions sessions' : List (UInt64 × Session)} :
    w.seats (sessions ++ sessions') = w.seats sessions + w.seats sessions' := by
  simp [seats]

theorem spared_of_used (used : setup.spawner ≠ .drop) : w.Spared setup := fun dropped => absurd dropped used

theorem seats_singleton {e : UInt64 × Session} : w.seats [e] = w.seat e.2 := by simp [seats]

/-- A session that is taken out takes its worth with it. -/
theorem seats_erase {table : SessionTable} {entry : Session} (keyed : table.Keyed)
    (found : table.find n = some entry) : w.seats table.entries = w.seat entry + w.seats (table.erase n).entries :=
  ((keyed.perm_erase found).map _).sum_eq

/-- Who holds no ticket any more takes no worth out of the table. -/
theorem seats_deafen (sessions : List (UInt64 × Session)) :
    w.seats (sessions.map fun e => (e.1, e.2.deafen t)) = w.seats sessions := by
  unfold seats
  rw [List.map_map]
  congr 2
  funext e
  obtain ⟨n, entry⟩ := e
  cases entry <;> rfl

/-- What closing takes in hand is worth what was in the table. -/
theorem hands_owing (sessions : List (UInt64 × Session)) : w.hands (owing sessions) = w.seats sessions := by
  induction sessions with
  | nil => rfl
  | cons e rest ih =>
    obtain ⟨n, entry⟩ := e
    cases entry with
    | waiting ticket listening =>
      rw [owing_cons_waiting, ih]
      exact (Int.zero_add _).symm
    | callback pending =>
      rw [owing_cons_callback, hands_cons, ih]
      rfl

/-- In the table only callbacks are worth anything. -/
theorem seats_eq_sum (sessions : List (UInt64 × Session)) :
    w.seats sessions = ((pledges sessions).map fun pending => w.pledge pending.ticket).sum := by
  rw [← hands_owing]
  unfold hands owing
  rw [Multiset.map_coe, Multiset.sum_coe, List.map_map]
  rfl

/-- Where no work is under way, only calls and waits in progress are in hand. -/
theorem hands_estate (s : Engine) : w.hands (s.estate 0) =
    (s.calls.map fun c => w.call c.ticket).sum + (s.waits.map fun v => w.pledge v.pending.ticket).sum := by
  unfold hands estate
  rw [Multiset.zero_add, Multiset.map_add, Multiset.sum_add, Multiset.map_coe, Multiset.map_coe, Multiset.sum_coe,
    Multiset.sum_coe, List.map_map, List.map_map]
  rfl

/-- Where things are worth something under one ticket only, they are counted. -/
theorem sum_of_ticket {α : Type} (ticket : α → Nat) (x : Int) (l : List α) :
    (l.map fun a => if ticket a = t then x else 0).sum = x * l.countP fun a => ticket a == t := by
  induction l with
  | nil => simp
  | cons a l ih =>
    rw [List.map_cons, List.sum_cons, ih, List.countP_cons]
    by_cases h : ticket a = t <;> simp [h]
    ring

/-- A move that leaves calls and waits in progress alone keeps the books if it does so where it looks. -/
theorem keep_books {gone : Nat} (calls : s'.calls = s.calls) (waits : s'.waits = s.waits)
    (lost : forfeits s'.journal = gone + forfeits s.journal)
    (h : w.hands given + w.seats s'.table.entries + w.packets s'.mail s'.issuer.pool + w.story s'.journal +
        w.packet * gone =
      w.hands taken + w.seats s.table.entries + w.packets s.mail s.issuer.pool + w.story s.journal) :
    w.books s' (given + F) = w.books s (taken + F) := by
  have same : s'.estate F = s.estate F := estate_congr calls waits
  unfold books total
  rw [estate_add, estate_add, hands_add, hands_add, same, lost, Nat.cast_add, Int.mul_add]
  omega

theorem conserve (calls : s'.calls = s.calls) (waits : s'.waits = s.waits)
    (lost : forfeits s'.journal = forfeits s.journal)
    (h : w.hands given + w.seats s'.table.entries + w.packets s'.mail s'.issuer.pool + w.story s'.journal =
      w.hands taken + w.seats s.table.entries + w.packets s.mail s.issuer.pool + w.story s.journal) :
    w.books s' (given + F) = w.books s (taken + F) :=
  keep_books calls waits (lost.trans (Nat.zero_add _).symm) (by simpa using h)

/-! ### Sessions and mail that go -/

theorem story_strike : w.story (s.strike n).journal = w.story s.journal := by
  cases found : s.table.find n with
  | none => rw [strike_of_find found]
  | some entry =>
    rw [strike_of_some found]
    exact (story_cons ..).trans (Int.zero_add _)

/-- A call for whose reply someone waits takes nothing of worth out of the table. -/
theorem seats_strike (inv : Inv setup s H) (numbered : Numbered s) {r : Packet} {made : Made}
    (request : (s.standing t).account.fate.request? = some r)
    (hmade : (s.standing t).account.made = some made) (waits : made.Waits) :
    w.seats (s.table.erase r.session).entries = w.seats s.table.entries := by
  cases found : s.table.find r.session with
  | none => rw [SessionTable.erase_of_find found]
  | some entry =>
    obtain ⟨listening, rfl⟩ := numbered.finds_waiting inv request hmade waits found
    rw [seats_erase inv.keyed found]
    exact (Int.zero_add _).symm

theorem length_unmail : (s.unmail t).mail.length + (mailOf t s.mail).length = s.mail.length := by
  unfold unmail mailOf
  rw [List.length_map, Nat.add_comm]
  exact (List.length_eq_length_filter_add _).symm

/-- A reply that is collected takes its worth with it. -/
theorem packets_unmail (s : Engine) (t : Nat) (pool : PacketPool) :
    w.packets (s.unmail t).mail pool = w.packets s.mail pool - w.packet * (mailOf t s.mail).length := by
  unfold packets
  rw [← length_unmail (s := s) (t := t)]
  push_cast
  ring

theorem packets_append {mail : List (Nat × Parcel)} {e : Nat × Parcel} :
    w.packets (mail ++ [e]) pool = w.packet + w.packets mail pool := by
  unfold packets
  rw [List.length_append]
  push_cast
  rw [List.length_singleton]
  push_cast
  ring

end Rates

/-! ### Every move -/

theorem forfeits_strike : forfeits (s.strike n).journal = forfeits s.journal := by
  cases found : s.table.find n with
  | none => rw [strike_of_find found]
  | some entry =>
    rw [strike_of_some found]
    rfl

/-- A call takes its session and its mail with it. What it does not collect is lost. -/
theorem Rates.conserve_leave {a : Engine} (calls : a.calls = s.calls) (waits : a.waits = s.waits)
    (table : a.table = s.table) (mail : a.mail = s.mail) (issuer : a.issuer = s.issuer)
    (seats : w.seats (s.table.erase n).entries = w.seats s.table.entries)
    (lost : forfeits a.journal = (mailOf t s.mail).length + forfeits s.journal)
    (h : w.hands given + w.story a.journal = w.hands taken + w.story s.journal) :
    w.books ((a.strike n).unmail t) (given + F) = w.books s (taken + F) := by
  refine keep_books calls waits (forfeits_strike.trans lost) ?_
  have packets : w.packets ((a.strike n).unmail t).mail a.issuer.pool =
      w.packets s.mail s.issuer.pool - w.packet * (mailOf t s.mail).length := by
    rw [packets_unmail]
    change w.packets a.mail a.issuer.pool - w.packet * (mailOf t a.mail).length = _
    rw [mail, issuer]
  have story : w.story ((a.strike n).unmail t).journal = w.story a.journal := story_strike
  have seats : w.seats ((a.strike n).unmail t).table.entries = w.seats s.table.entries := by
    change w.seats (a.table.erase n).entries = _
    rw [table, seats]
  change _ + _ + w.packets ((a.strike n).unmail t).mail a.issuer.pool + _ + _ = _
  rw [packets, story, seats]
  omega

theorem Move.books (m : Move setup s taken s' given) (inv : Inv setup s (taken + F)) (numbered : Numbered s)
    (spared : w.Spared setup) : w.books s' (given + F) = w.books s (taken + F) := by
  have known : ∀ {k : Token}, k ∈ taken → k.Fits (s.standing k.ticket) := fun hk =>
    inv.fits_of_mem (Multiset.mem_add.mpr (.inl hk))
  -- Only what ends a call or a wait can lose a reply; all other moves are a matter of arithmetic.
  cases m with
  | take =>
    refine Rates.conserve rfl rfl rfl ?_
    simp only [Rates.hands_singleton, Rates.hands_zero, Rates.packets, Rates.hand, Issuer.gets_get, Issuer.puts_get]
    push_cast
    ring
  | put p =>
    refine Rates.conserve rfl rfl rfl ?_
    simp only [Rates.hands_singleton, Rates.hands_zero, Rates.packets, Rates.hand, Issuer.gets_put, Issuer.puts_put]
    push_cast
    ring
  | draw | contexts | load | writes => exact Rates.conserve rfl rfl rfl rfl
  | note plain =>
    rename_i e
    have kept : forfeits (s.note e).journal = forfeits s.journal := by
      cases e <;> first | rfl | exact plain.elim
    refine Rates.conserve rfl rfl kept ?_
    have : w.said e = 0 := by cases e <;> first | rfl | exact plain.elim
    simp [Engine.note, this]
  | takeCall found =>
    rw [Multiset.zero_add] at inv ⊢
    unfold Rates.books Rates.total
    rw [inv.estate_takeCall found]
  | takeWait found =>
    rw [Multiset.zero_add] at inv ⊢
    unfold Rates.books Rates.total
    rw [inv.estate_takeWait found]
  | keepCall c =>
    unfold Rates.books Rates.total
    rw [Multiset.zero_add, estate_keepCall]
  | keepWait v =>
    unfold Rates.books Rates.total
    rw [Multiset.zero_add, estate_keepWait]
  | watch timed taken =>
    unfold Rates.books Rates.total
    rw [estate_watch, estate_add, estate_add]
    simp [Rates.hand, Rates.returned, Rates.pledge, Rates.run]
    ring
  | call m =>
    have forgone : forfeits (.called s.tickets m :: s.journal) = forfeits s.journal := rfl
    unfold Rates.books Rates.total
    rw [estate_call, estate_add, forgone]
    simp [Rates.hand, Rates.said]
    ring
  | ask m callbacks =>
    refine Rates.conserve rfl rfl rfl ?_
    simp [Rates.hand, Rates.said]
    ring
  | enrollCall phase encodes enrolls =>
    refine Rates.conserve rfl rfl rfl ?_
    simp [Rates.hand, Rates.said, Rates.seat, Engine.enroll, Engine.draw, Issuer.nextSession,
      SessionTable.insert, Rates.seats_append, Rates.seats_singleton]
  | enrollWait timed enrolls =>
    refine Rates.conserve rfl rfl rfl ?_
    simp [Rates.hand, Rates.said, Rates.seat, Engine.enroll, Engine.draw, Issuer.nextSession,
      SessionTable.insert, Rates.seats_append, Rates.seats_singleton]
  | enrollCallbacks patient enrolls =>
    refine Rates.conserve rfl rfl rfl ?_
    simp [Rates.hand, Rates.said, Rates.seat, Rates.pledge, Rates.run, Engine.enroll, Engine.draw, Issuer.nextSession,
      SessionTable.insert, Rates.seats_append, Rates.seats_singleton]
    ring
  | matchCallbacks response found =>
    refine Rates.conserve rfl rfl rfl ?_
    rw [Rates.seats_erase inv.keyed found]
    simp [Rates.hand, Rates.said, Rates.seat, Rates.pledge]
    ring
  | matchWaiting response found =>
    refine Rates.conserve rfl rfl rfl ?_
    rw [Rates.seats_erase inv.keyed found]
    simp [Rates.hand, Rates.said, Rates.seat, Rates.packets_append]
    ring
  | matchNobody response found =>
    refine Rates.conserve rfl rfl rfl ?_
    rw [Rates.seats_erase inv.keyed found]
    simp [Rates.said, Rates.seat]
  | pass response missing =>
    refine Rates.conserve rfl rfl rfl ?_
    simp [Engine.note, Rates.said]
  | close =>
    refine Rates.conserve rfl rfl rfl ?_
    simp [Rates.hands_owing, Rates.said, Rates.seats]
  | settle pending =>
    refine Rates.conserve rfl rfl rfl ?_
    simp [Engine.note, Rates.hand, Rates.said, Rates.pledge]
    ring
  | refuseCall phase reason =>
    refine Rates.conserve rfl rfl rfl ?_
    simp [Engine.note, Rates.hand, Rates.said]
    ring
  | beginCall c session now =>
    refine Rates.conserve rfl rfl rfl ?_
    simp [Engine.note, Rates.hand, Rates.said]
  | @cancelEarly c phase =>
    -- Without a request no reply can have come in.
    have fate := (known (k := .calling c) (by simp)).unregistered phase
    have none : (account c.ticket s.journal).handed = 0 := Account.handed_of_fate fun r p replied => by
      cases fate.symm.trans replied
    refine Rates.conserve rfl rfl (forfeits_of_handed none) ?_
    simp [Engine.note, Rates.hand, Rates.said]
    ring
  | refuse ticket m callbacks fault =>
    refine Rates.conserve rfl rfl rfl ?_
    simp [Rates.hand, Rates.returned]
  | collect phase found =>
    rename_i c session deadline p
    -- The mail of a ticket is one reply at most, so none is left behind.
    obtain ⟨r, -, listens⟩ := (known (k := .calling c) (by simp)).listens phase
    obtain ⟨-, mail⟩ := listens.handed_of_mail (lookup_eq_head?_mailOf.symm.trans found)
    have mail : mailOf c.ticket s.mail = [p] := mail
    refine Rates.conserve rfl rfl rfl ?_
    rw [Rates.packets_unmail, mail]
    simp [Engine.unmail, Rates.hand]
    ring
  | bereave phase missing gone =>
    refine Rates.conserve rfl rfl rfl ?_
    simp [Rates.hand]
  | finish c session result =>
    obtain ⟨made, -, -, -, mail, -, r, request, rfl⟩ := known (k := .ending c session result) (by simp)
    have mail : mailOf c.ticket s.mail = [] := mail
    refine Rates.conserve_leave rfl rfl rfl rfl rfl (Rates.seats_strike inv numbered request made trivial) ?_ ?_
    · rw [mail]
      exact (Nat.zero_add _).symm
    · simp [Engine.note, Rates.hand, Rates.said]
  | failCall c session fault =>
    -- A reply that came in while the request was written is lost with the call.
    obtain ⟨made, -, -, -, r, rfl, listens⟩ := known (k := .sending c session) (by simp)
    refine Rates.conserve_leave rfl rfl rfl rfl rfl (Rates.seats_strike inv numbered listens.request? made trivial)
      ?_ ?_
    · exact congrArg (· + forfeits s.journal) (listens.length_mail made trivial).symm
    · simp [Engine.note, Rates.hand, Rates.said]
  | expire phase held late =>
    rename_i c session deadline now limit
    have fits := known (k := .calling c) (by simp)
    obtain ⟨r, rfl, listens⟩ := fits.listens phase
    -- A session that is still in the table has no reply yet.
    obtain ⟨-, -, mail⟩ := inv.find_of_listens listens held
    have mail : mailOf c.ticket s.mail = [] := mail
    refine Rates.conserve_leave rfl rfl rfl rfl rfl (Rates.seats_strike inv numbered listens.request? fits.1 trivial)
      ?_ ?_
    · rw [mail]
      exact (Nat.zero_add _).symm
    · simp [Engine.note, Rates.hand, Rates.said]
  | cancel phase =>
    rename_i c session deadline
    have fits := known (k := .calling c) (by simp)
    obtain ⟨r, rfl, listens⟩ := fits.listens phase
    refine Rates.conserve_leave rfl rfl rfl rfl rfl (Rates.seats_strike inv numbered listens.request? fits.1 trivial)
      ?_ ?_
    · exact congrArg (· + forfeits s.journal) (listens.length_mail fits.1 trivial).symm
    · simp [Engine.note, Rates.hand, Rates.said]
  | failWait m pending fault =>
    obtain ⟨made, -, -, timed, listens⟩ := known (k := .promised m pending) (by simp)
    refine Rates.conserve_leave rfl rfl rfl rfl rfl (Rates.seats_strike inv numbered listens.request? made timed)
      ?_ ?_
    · exact congrArg (· + forfeits s.journal) (listens.length_mail made timed).symm
    · simp [Engine.note, Rates.hand, Rates.said, Rates.returned]
  | beginWait now fresh =>
    refine Rates.conserve rfl rfl rfl ?_
    simp [Engine.note, Rates.hand, Rates.said]
  | collectWait found =>
    rename_i v p
    obtain ⟨-, -, -, listens⟩ := known (k := .watching v) (by simp)
    obtain ⟨-, mail⟩ := listens.handed_of_mail (lookup_eq_head?_mailOf.symm.trans found)
    have mail : mailOf v.pending.ticket s.mail = [p] := mail
    refine Rates.conserve rfl rfl rfl ?_
    change _ + _ + w.packets (s.unmail v.pending.ticket).mail s.issuer.pool + _ = _
    rw [Rates.packets_unmail, mail]
    simp [Engine.unmail, Engine.note, Rates.hand, Rates.said, Rates.pledge]
    ring
  | bereaveWait missing gone =>
    refine Rates.conserve rfl rfl rfl ?_
    simp [Engine.note, Rates.hand, Rates.said, Rates.pledge]
    ring
  | expireWait held begun late =>
    rename_i v now deadline
    obtain ⟨-, -, ⟨m, made, timed⟩, listens⟩ := known (k := .watching v) (by simp)
    have waits : (Made.async m v.pending.callbacks).Waits := by simp [Made.Waits, timed]
    have seats := Rates.seats_strike (w := w) inv numbered listens.request? made waits
    have story : w.story ((s.note (.expired v.pending.ticket now)).strike v.pending.request.session).journal =
        w.story s.journal := Rates.story_strike.trans (by simp [Engine.note, Rates.said])
    refine Rates.conserve rfl rfl (forfeits_strike (s := s.note _)) ?_
    change _ + w.seats (s.table.erase v.pending.request.session).entries + _ +
      w.story (.delivered v.pending _ :: _) = _
    rw [seats, Rates.story_cons, story]
    change _ + _ + w.packets s.mail s.issuer.pool + _ = _
    simp [Rates.hand, Rates.said, Rates.pledge]
    ring
  | accept m pending =>
    refine Rates.conserve rfl rfl rfl ?_
    simp [Rates.hand, Rates.returned]
  | failLate fault missing =>
    rename_i m pending
    obtain ⟨made, patient, -⟩ := known (k := .placed m pending) (by simp)
    have none : (account pending.ticket s.journal).handed = 0 := Account.handed_of_not_waits made (by simp [Made.Waits, patient])
    refine Rates.conserve rfl rfl (forfeits_of_handed none) ?_
    simp [Engine.note, Rates.hand, Rates.said, Rates.returned]
  | fail fault found =>
    rename_i m pending entry
    obtain ⟨made, patient, request⟩ := known (k := .placed m pending) (by simp)
    -- Numbers are drawn once, so what is found are the callbacks of this very call.
    obtain ⟨p, rfl, ticket⟩ := numbered.finds_callback inv request made patient found
    have ticket : p.ticket = pending.ticket := ticket
    have story : w.story ((s.note (.unsent pending.ticket fault)).strike pending.request.session).journal =
        w.story s.journal := Rates.story_strike.trans (by simp [Engine.note, Rates.said])
    have none : (account pending.ticket s.journal).handed = 0 := Account.handed_of_not_waits made (by simp [Made.Waits, patient])
    refine Rates.conserve rfl rfl (forfeits_strike.trans (forfeits_of_handed none)) ?_
    rw [story, Rates.seats_erase inv.keyed found]
    change _ + w.seats (s.table.erase pending.request.session).entries + w.packets s.mail s.issuer.pool + _ = _
    simp [orphans, Rates.hand, Rates.seat, Rates.returned, Rates.pledge, Rates.run, ticket]
    ring
  | answer ticket result =>
    refine Rates.conserve rfl rfl rfl ?_
    simp [Engine.note, Rates.hand, Rates.said]
    ring
  | forsake dropped =>
    -- The reply to a wait that is dropped is lost untold, which rates that are spared do not notice.
    obtain ⟨free, even⟩ := spared dropped
    refine Rates.conserve rfl rfl rfl ?_
    change _ + w.seats (s.table.entries.map _) + w.packets _ s.issuer.pool + _ = _
    rw [Rates.seats_deafen]
    simp [deafen, unmail, Rates.packets, Rates.hand, Rates.returned, free, even]

/-- Along a run nothing is made, and what is lost is told. -/
theorem Moves.books (m : Moves setup s H s' K) (inv : Inv setup s H) (numbered : Numbered s)
    (few : s'.issuer.drawn ≤ numbers) (spared : w.Spared setup) : w.books s' K = w.books s H := by
  induction m with
  | refl => rfl
  | tail F before last ih =>
    have few := last.drawn.trans few
    exact (last.books (before.inv inv) (before.numbered inv numbered few) spared).trans (ih few)

end

/-! ### Where nothing is lost -/

/-- Nothing was given up, and no request failed to be written that had been answered before. -/
structure Careful (J : List Entry) : Prop where
  kept : ∀ {t}, Entry.cancelled t ∉ J
  order : ∀ later t fault earlier p, J = later ++ .unsent t fault :: earlier → Entry.matched t p ∉ earlier

theorem Careful.drop {J K : List Entry} (careful : Careful (K ++ J)) : Careful J where
  kept h := careful.kept (List.mem_append_right K h)
  order later t fault earlier p h := careful.order (K ++ later) t fault earlier p (by rw [h, List.append_assoc])

/-- Where all are careful nothing is lost. -/
theorem Careful.forfeits_eq_zero {J : List Entry} (careful : Careful J) : forfeits J = 0 := by
  induction J with
  | nil => rfl
  | cons e J ih =>
    have rest : forfeits J = 0 := ih (careful.drop (K := [e]))
    cases e with
    | cancelled t => exact absurd List.mem_cons_self careful.kept
    | unsent t fault =>
      refine Nat.add_eq_zero_iff.mpr ⟨Account.handed_of_fate fun r p replied => ?_, rest⟩
      have told := told_fate J t
      rw [replied] at told
      exact careful.order [] t fault J p rfl told.mem
    | _ => exact rest

end Engine
end Switchboard
