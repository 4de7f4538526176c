import Switchboard.Proofs.Correlation
import Switchboard.Proofs.Engine.Underway

/-! What is in the session table. Between any two moves it holds the numbers of the requests that were
    registered and whose sessions nothing has ended, and no others; a number is never drawn again, and no call
    takes out a session that is not its own. -/

namespace Switchboard

/-- What happened leaves the call with a ticket without a session. -/
def Entry.shuts (ticket : Nat) : Entry → Bool
  | .matched t _ | .expired t _ | .cancelled t | .unsent t _ => t == ticket
  | .closed => true
  | _ => false

/-- A request was registered for a ticket, and no reply, time limit, caller, failure to write or closing has
    ended its session. -/
structure Pends (J : List Entry) (ticket : Nat) (request : Packet) : Prop where
  registered : .registered ticket request ∈ J
  unshut : ∀ e ∈ J, e.shuts ticket = false

/-- A request of a ticket was registered. -/
def Entry.registersFor (ticket : Nat) : Entry → Bool
  | .registered t _ => t == ticket
  | _ => false

/-- The call with a ticket has a request that pends. -/
def pends (J : List Entry) (ticket : Nat) : Bool := J.any (·.registersFor ticket) && J.all fun e => !e.shuts ticket

theorem pends_iff {J : List Entry} {t : Nat} : pends J t = true ↔ ∃ r, Pends J t r := by
  rw [pends, Bool.and_eq_true, List.any_eq_true, List.all_eq_true]
  constructor
  · rintro ⟨⟨e, mem, registers⟩, unshut⟩
    cases e with
    | registered u r =>
      obtain rfl := beq_iff_eq.mp registers
      exact ⟨r, mem, fun e he => by simpa using unshut e he⟩
    | _ => cases registers
  · rintro ⟨r, registered, unshut⟩
    exact ⟨⟨_, registered, beq_self_eq_true t⟩, fun e he => by simp [unshut e he]⟩

namespace Engine

variable {setup : Setup} {shared : Bool} {s t u v : Engine} {H : Hands}

/-! ### What pends -/

/-- A request pends as long as its call awaits the reply. -/
theorem Inv.pends_iff_awaiting (inv : Inv setup s H) (tidy : ∀ t, (account t s.journal).Tidy t) (sealed : s.Sealed)
    {ticket : Nat} {r : Packet} : Pends s.journal ticket r ↔ (account ticket s.journal).fate = .awaiting r := by
  constructor
  · rintro ⟨registered, unshut⟩
    have request := inv.coherent.request_of_mem registered
    have told := told_fate s.journal ticket
    have shut : ∀ {e}, e.shuts ticket = true → e ∉ s.journal := fun shuts mem => by
      rw [unshut _ mem] at shuts
      cases shuts
    have ended : ∀ {r' e}, e.shuts ticket = true → ¬EndedBy s.journal ticket r' e := fun shuts ended =>
      shut shuts ended.mem
    cases fate : (account ticket s.journal).fate with
    | unregistered =>
      rw [fate] at request
      cases request
    | awaiting r' =>
      rw [fate] at request
      cases request
      rfl
    | replied r' p =>
      rw [fate] at told
      exact absurd told (ended (beq_self_eq_true _))
    | closed r' =>
      rw [fate] at told
      exact absurd told (ended rfl)
    | expired r' now =>
      rw [fate] at told
      exact absurd told (ended (beq_self_eq_true _))
    | removed r' =>
      -- A session is taken out only for a call that was given up or could not be sent.
      rcases (tidy ticket).reason r' fate with failed | cancelled
      · obtain ⟨fault, said⟩ := Option.isSome_iff_exists.mp failed
        exact absurd (mem_of_failed said) (shut (beq_self_eq_true _))
      · exact absurd (cancelled_mem_ends.mp cancelled) (shut (beq_self_eq_true _))
  · intro fate
    have held : s.table.entries ≠ [] := by
      obtain ⟨entry, mem, -⟩ := inv.entry_of_awaiting fate
      exact List.ne_nil_of_mem mem
    refine ⟨mem_of_request (congrArg Fate.request? fate), fun e mem => Bool.eq_false_iff.mpr fun shuts => ?_⟩
    have settled : (account ticket s.journal).failed.isSome ∨ (account ticket s.journal).ends ≠ [] → False := fun h =>
      (tidy ticket).settled h r fate
    cases e with
    | matched u p =>
      obtain rfl := beq_iff_eq.mp shuts
      obtain ⟨r', replied⟩ := inv.coherent.fate_of_matched mem
      cases fate.symm.trans replied
    | expired u now =>
      obtain rfl := beq_iff_eq.mp shuts
      obtain ⟨r', expired⟩ := inv.coherent.fate_of_expired mem
      cases fate.symm.trans expired
    | cancelled u =>
      obtain rfl := beq_iff_eq.mp shuts
      exact settled (.inr (List.ne_nil_of_mem (cancelled_mem_ends.mpr mem)))
    | unsent u fault =>
      obtain rfl := beq_iff_eq.mp shuts
      exact settled (.inl (failed_of_mem mem))
    | closed => exact held (inv.shut (sealed.shut mem)).1
    | _ => cases shuts

/-- A ticket has one session at most. -/
theorem Inv.nodup_tickets (inv : Inv setup s H) : (s.table.entries.map (·.2.ticket)).Nodup := by
  refine List.nodup_iff_count_le_one.mpr fun ticket => ?_
  have counted : (s.table.entries.map (·.2.ticket)).count ticket = (s.standing ticket).sessions.length := by
    rw [List.count_eq_countP, List.countP_map, List.countP_eq_length_filter]
    rfl
  rw [counted]
  have sound := inv.sound ticket
  unfold Standing.Sound at sound
  cases fate : (s.standing ticket).account.fate with
  | awaiting r =>
    simp only [fate] at sound
    obtain ⟨⟨entry, sessions, -⟩, -⟩ := sound
    simp [sessions]
  | _ =>
    simp only [fate] at sound
    simp [sound.1]

/-- What is in the table: the numbers of all requests that pend, and nothing else. -/
structure Exact (s : Engine) : Prop where
  distinct : (s.table.entries.map Prod.fst).Nodup
  keys : ∀ n, n ∈ s.table.entries.map Prod.fst ↔ ∃ ticket r, Pends s.journal ticket r ∧ r.session = n
  count : s.table.entries.length = (List.range s.tickets).countP (pends s.journal)
  drawn : ∀ n ∈ s.table.entries.map Prod.fst, n.toNat ≤ s.issuer.drawn

theorem Underway.exact (run : Underway setup shared s H) (few : s.issuer.drawn ≤ numbers) : Exact s := by
  have inv := run.inv
  have tidy := run.tidy few
  have awaiting : ∀ {ticket r}, Pends s.journal ticket r ↔ (account ticket s.journal).fate = .awaiting r :=
    inv.pends_iff_awaiting tidy run.sealed
  have pending : ∀ {n entry}, (n, entry) ∈ s.table.entries → ∃ r, Pends s.journal entry.ticket r ∧ r.session = n := by
    intro n entry mem
    obtain ⟨r, fate, number, -⟩ := inv.found (inv.keyed.find_of_mem mem)
    exact ⟨r, awaiting.mpr fate, number⟩
  have there : ∀ {ticket r}, Pends s.journal ticket r →
      ∃ entry, (r.session, entry) ∈ s.table.entries ∧ entry.ticket = ticket := fun pends =>
    inv.entry_of_awaiting (awaiting.mp pends)
  refine ⟨inv.keyed, fun n => ⟨fun h => ?_, ?_⟩, ?_, fun n h => ?_⟩
  · obtain ⟨⟨k, entry⟩, mem, rfl⟩ := List.mem_map.mp h
    obtain ⟨r, pends, number⟩ := pending mem
    exact ⟨entry.ticket, r, pends, number⟩
  · rintro ⟨ticket, r, pends, rfl⟩
    obtain ⟨entry, mem, -⟩ := there pends
    exact List.mem_map_of_mem mem
  · -- The tickets in the table are those of the calls that pend, each once.
    have known : ∀ {ticket r}, Pends s.journal ticket r → ticket < s.tickets := by
      intro ticket r pends
      by_contra unknown
      have fresh : account ticket s.journal = {} := inv.fresh ticket (by omega)
      have fate := awaiting.mp pends
      rw [fresh] at fate
      cases fate
    have same : (s.table.entries.map (·.2.ticket)).Perm ((List.range s.tickets).filter (pends s.journal)) := by
      refine (List.perm_ext_iff_of_nodup inv.nodup_tickets (List.nodup_range.filter _)).mpr fun ticket => ?_
      rw [List.mem_filter, List.mem_range, pends_iff, List.mem_map]
      constructor
      · rintro ⟨⟨n, entry⟩, mem, rfl⟩
        obtain ⟨r, pends, -⟩ := pending mem
        exact ⟨known pends, r, pends⟩
      · rintro ⟨-, r, pends⟩
        obtain ⟨entry, mem, ticket⟩ := there pends
        exact ⟨_, mem, ticket⟩
    have length := same.length_eq
    rwa [List.length_map, ← List.countP_eq_length_filter] at length
  · obtain ⟨e, mem, rfl⟩ := List.mem_map.mp h
    obtain ⟨k, -, last, number⟩ := (run.orderly few).drawn e mem
    rw [number, UInt64.toNat_ofNat']
    exact (Nat.mod_le k _).trans last

/-! ### Whose session is taken out -/

/-- The number under which something in hand looks for its session. -/
def Token.number : Token → Option UInt64
  | .calling c => match c.phase with
    | .created => none
    | .waiting session _ => some session
  | .sending _ session | .ending _ session _ => some session
  | .watching w => some w.pending.request.session
  | .placed _ pending | .promised _ pending | .owed pending => some pending.request.session
  | .parcel | .asked _ _ _ | .answering _ _ => none

theorem Token.Fits.request {k : Token} {st : Standing} (fits : k.Fits st) {n : UInt64} (number : k.number = some n) :
    ∃ r, st.account.fate.request? = some r ∧ r.session = n := by
  cases k with
  | parcel | asked _ _ _ | answering _ _ => cases number
  | calling c =>
    obtain ⟨-, -, hphase⟩ := fits
    unfold Token.number at number
    rcases phase : c.phase with _ | ⟨session, deadline⟩ <;> simp only [phase] at number hphase
    · cases number
    · obtain rfl := Option.some.inj number
      obtain ⟨-, r, -, session, -, -, listens⟩ := hphase
      exact ⟨r, listens.request?, session⟩
  | sending c session =>
    obtain rfl := Option.some.inj number
    obtain ⟨-, -, -, -, r, session, listens⟩ := fits
    exact ⟨r, listens.request?, session⟩
  | ending c session result =>
    obtain rfl := Option.some.inj number
    obtain ⟨-, -, -, -, -, -, request⟩ := fits
    exact request
  | watching w =>
    obtain rfl := Option.some.inj number
    obtain ⟨-, -, -, listens⟩ := fits
    exact ⟨_, listens.request?, rfl⟩
  | placed m pending =>
    obtain rfl := Option.some.inj number
    exact ⟨_, fits.2.2, rfl⟩
  | promised m pending =>
    obtain rfl := Option.some.inj number
    obtain ⟨-, -, -, -, listens⟩ := fits
    exact ⟨_, listens.request?, rfl⟩
  | owed pending =>
    obtain rfl := Option.some.inj number
    obtain ⟨-, fate⟩ := fits
    exact ⟨_, congrArg Fate.request? fate, rfl⟩

/-- Taking out what is found under the number of something in hand leaves the sessions of all others. -/
theorem Underway.spares_others (run : Underway setup shared s H) (few : s.issuer.drawn ≤ numbers) {k : Token}
    (hk : k ∈ s.estate H) {n : UInt64} (number : k.number = some n) {e : UInt64 × Session}
    (mem : e ∈ s.table.entries) (other : e.2.ticket ≠ k.ticket) : e ∈ (s.strike n).table.entries := by
  obtain ⟨r, request, rfl⟩ := (run.inv.fits k hk).request number
  refine List.mem_filter.mpr ⟨mem, bne_iff_ne.mpr fun same => other ?_⟩
  obtain ⟨key, entry⟩ := e
  obtain rfl : key = r.session := same
  exact (run.numbered few).own run.inv request (run.inv.keyed.find_of_mem mem)

/-! ### Numbers -/

theorem issue_number {command : Command} {m : Outbound} {p : Parcel} (h : issue command m s = .ok (p, t)) :
    t.issuer.drawn = s.issuer.drawn + 1 ∧ p.session = UInt64.ofNat t.issuer.drawn := by
  obtain ⟨-, number, rfl⟩ := issue_eq_ok h
  exact ⟨rfl, number⟩

/-- No two messages are given the same number. -/
theorem issue_distinct {command command' : Command} {m m' : Outbound} {p q : Parcel}
    (first : issue command m s = .ok (p, t)) (later : Later setup t u)
    (second : issue command' m' u = .ok (q, v)) (few : v.issuer.drawn ≤ numbers) : p.session ≠ q.session := by
  obtain ⟨drawn, number⟩ := issue_number first
  obtain ⟨drawn', number'⟩ := issue_number second
  have since := later.drawn
  intro same
  have := ofNat_inj (by omega) (by omega) (by omega) few (number.symm.trans (same.trans number'))
  omega

/-- At every point of a run that draws no more than `2 ^ 64` numbers the table holds what pends and nothing
    else; no call takes another's session out of it; no two messages have the same number; and what is done
    with the connection never meets a number in use. -/
theorem table_holds_what_pends (run : Underway setup shared s H) (few : s.issuer.drawn ≤ numbers) :
    Exact s ∧
    (∀ k ∈ s.estate H, ∀ {n}, k.number = some n → ∀ e ∈ s.table.entries, e.2.ticket ≠ k.ticket →
      e ∈ (s.strike n).table.entries) ∧
    (∀ {command m p t u command' m' q v}, issue command m s = .ok (p, t) → Later setup t u →
      issue command' m' u = .ok (q, v) → v.issuer.drawn ≤ numbers → p.session ≠ q.session) ∧
    ∀ {depth a halt}, act setup depth a s = .error halt →
      halt = .tooDeep ∨ ∃ n drawn, halt = .sessionInUse n drawn ∧ numbers ≤ drawn := by
  refine ⟨run.exact few, fun k hk n number e mem other => run.spares_others few hk number mem other,
    issue_distinct, ?_⟩
  intro depth a halt stopped
  have forced := (act_sure setup depth a s (run.orderly few)).of_error stopped
  cases halt with
  | tooDeep => exact .inl rfl
  | sessionInUse n drawn => exact .inr ⟨n, drawn, rfl, forced⟩

/-! ### A run with every way for a session to end -/

/-- Of five calls one has its reply, one is given up, one has its time over and one pends; the last was made and
    not polled. -/
def assorted : Engine :=
  actAll numeric 1
    [.startCall { route := .id 7, body := .ok [1] }, .startCall { route := .id 7, body := .ok [2] },
      .startCall { route := .id 7, body := .ok [3], timeout := some ⟨5⟩ },
      .startCall { route := .id 7, body := .ok [4] }, .startCall { route := .id 7, body := .ok [5] },
      .pollCall 0 0, .pollCall 0 1, .pollCall 0 2, .pollCall 0 3, .receive (shortReply 1 11 11), .cancelCall 1,
      .pollCall 5 2] {}

theorem reachable_assorted : Reachable numeric false assorted :=
  (Reachable.start {} {} {} true fun _ => rfl).actAll 1 _

theorem assorted_table_holds_what_pends :
    assorted.table.entries.length = 1 ∧ (∃ ticket r, Pends assorted.journal ticket r ∧ r.session = 4) ∧
      ∀ n ∈ assorted.table.entries.map Prod.fst, n.toNat ≤ 4 := by
  obtain ⟨exact, -, -⟩ := table_holds_what_pends reachable_assorted.underway (by decide +kernel)
  have drawn : assorted.issuer.drawn = 4 := by decide +kernel
  refine ⟨exact.count.trans (by decide +kernel), (exact.keys 4).mp ?_, fun n mem => drawn ▸ exact.drawn n mem⟩
  have keys : assorted.table.entries.map Prod.fst = [4] := by decide +kernel
  exact keys ▸ List.mem_singleton_self _

end Engine
end Switchboard
