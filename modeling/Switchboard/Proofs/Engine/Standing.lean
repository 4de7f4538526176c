import Switchboard.Proofs.Engine.Account

/-! The standing of a call: what the journal says of it, where its session is, and where its reply is. Others
    can change it in one way only, by ending the session, so whoever acts for the call finds it in one of a
    few states. What is in hand is true to it. -/

namespace Switchboard

/-- All that there is of one call apart from what is in hand: its account, its sessions in the table and
    the replies handed over for it. -/
structure Standing where
  account : Account
  sessions : List (UInt64 × Session)
  mail : List Parcel

/-- The replies handed over for a ticket. -/
def mailOf (ticket : Nat) (mail : List (Nat × Parcel)) : List Parcel :=
  (mail.filter fun e => e.1 == ticket).map Prod.snd

namespace Engine

def standing (s : Engine) (ticket : Nat) : Standing :=
  { account := account ticket s.journal, sessions := s.table.sessionsOf ticket, mail := mailOf ticket s.mail }

end Engine

theorem lookup_eq_head?_mailOf {ticket : Nat} {mail : List (Nat × Parcel)} :
    mail.lookup ticket = (mailOf ticket mail).head? := by
  induction mail with
  | nil => rfl
  | cons e rest ih =>
    obtain ⟨t, p⟩ := e
    by_cases h : t = ticket
    · simp [mailOf, h]
    · have : (ticket == t) = false := by simpa using Ne.symm h
      simp only [List.lookup_cons, this, ih]
      simp [mailOf, h]

theorem Engine.mail_eq_nil {s : Engine} {ticket : Nat} (h : s.mail.lookup ticket = none) :
    (s.standing ticket).mail = [] := by
  rw [lookup_eq_head?_mailOf] at h
  exact List.head?_eq_none_iff.mp h

theorem Engine.sessions_eq_nil {s : Engine} {ticket : Nat} (h : s.table.holds ticket = false) :
    (s.standing ticket).sessions = [] := by
  by_contra hne
  rw [SessionTable.holds_iff.mpr hne] at h
  cases h

theorem mailOf_append {ticket t : Nat} {mail : List (Nat × Parcel)} {p : Parcel} :
    mailOf ticket (mail ++ [(t, p)]) = mailOf ticket mail ++ if t = ticket then [p] else [] := by
  by_cases h : t = ticket <;> simp [mailOf, h]

theorem mailOf_unmail {s : Engine} {ticket t : Nat} :
    mailOf ticket (s.unmail t).mail = if t = ticket then [] else mailOf ticket s.mail := by
  unfold mailOf Engine.unmail
  by_cases h : t = ticket
  · simp [h, List.filter_filter]
  · have : ∀ e : Nat × Parcel, (e.1 == ticket && e.1 != t) = (e.1 == ticket) := by
      intro e
      by_cases he : e.1 = ticket
      · simp [he, Ne.symm h]
      · simp [he]
    simp [h, List.filter_filter, this]

/-! ### Sound standings -/

/-- An account tells of a call whose session may be in the table. -/
def Account.Backs (a : Account) (request : Packet) : Session → Prop
  | .waiting _ listening =>
    ∃ made, a.made = some made ∧ made.Waits ∧ (listening = false → ∃ m callbacks, made = .async m callbacks)
  | .callback pending =>
    pending.request.toPacket = request ∧ ∃ m, a.made = some (.async m pending.callbacks) ∧ m.timeout = none

namespace Standing

/-- The session of a call is in the table while its request awaits a reply, and the reply is handed over
    only once the session is gone. -/
def Sound (st : Standing) : Prop :=
  match st.account.fate with
  | .unregistered => st.sessions = [] ∧ st.mail = []
  | .awaiting r => (∃ entry, st.sessions = [(r.session, entry)] ∧ st.account.Backs r entry) ∧ st.mail = []
  | .replied _ p => st.sessions = [] ∧ (st.mail = [] ∨ ∃ q : Parcel, st.mail = [q] ∧ q.toPacket = p)
  | .closed _ | .expired _ _ | .removed _ => st.sessions = [] ∧ st.mail = []

/-- How many callbacks of a ticket are in the table, and how often its call ended. -/
def stakes (st : Standing) : Nat := (pledges st.sessions).length + st.account.ends.length

/-- Whoever waits for a reply to a request can count on it. -/
inductive Listens (st : Standing) (ticket : Nat) (request : Packet) : Prop where
  | awaiting (fate : st.account.fate = .awaiting request)
      (sessions : st.sessions = [(request.session, .waiting ticket true)]) (mail : st.mail = [])
  | handed (q : Parcel) (fate : st.account.fate = .replied request q.toPacket) (mail : st.mail = [q])
  | closed (fate : st.account.fate = .closed request) (mail : st.mail = [])
  | removed (fate : st.account.fate = .removed request) (mail : st.mail = [])

/-- What others may do to the standing of a ticket: end its session. -/
inductive Drifts (st st' : Standing) : Prop where
  | stay (account : st'.account = st.account) (sessions : st'.sessions = st.sessions) (mail : st'.mail = st.mail)
  | closed (request : Packet) (fate : st.account.fate = .awaiting request)
      (account : st'.account = { st.account with fate := .closed request }) (mail : st'.mail = st.mail)
  | removed (request : Packet) (fate : st.account.fate = .awaiting request)
      (account : st'.account = { st.account with fate := .removed request }) (mail : st'.mail = st.mail)
  | handed (request : Packet) (q : Parcel) (fate : st.account.fate = .awaiting request)
      (account : st'.account = { st.account with fate := .replied request q.toPacket })
      (mail : st'.mail = st.mail ++ [q])
  | met (request p : Packet) (fate : st.account.fate = .awaiting request)
      (account : st'.account = { st.account with fate := .replied request p })
      (deaf : ∀ n ticket, st.sessions ≠ [(n, .waiting ticket true)])

theorem Sound.congr {st st' : Standing} (sound : st.Sound) (fate : st'.account.fate = st.account.fate)
    (made : st'.account.made = st.account.made) (sessions : st'.sessions = st.sessions)
    (mail : st'.mail = st.mail) : st'.Sound := by
  have backs : ∀ r entry, st.account.Backs r entry → st'.account.Backs r entry := by
    intro r entry h
    cases entry with
    | waiting _ _ =>
      obtain ⟨m, hm, hwaits⟩ := h
      exact ⟨m, made.trans hm, hwaits⟩
    | callback pending =>
      obtain ⟨hrequest, m, hm, hpatient⟩ := h
      exact ⟨hrequest, m, made.trans hm, hpatient⟩
  unfold Sound at sound ⊢
  rw [fate, sessions, mail]
  cases hfate : st.account.fate with
  | awaiting r =>
    simp only [hfate] at sound ⊢
    obtain ⟨⟨entry, hsessions, hbacks⟩, hmail⟩ := sound
    exact ⟨⟨entry, hsessions, backs r entry hbacks⟩, hmail⟩
  | _ =>
    simp only [hfate] at sound ⊢
    exact sound

theorem Sound.unmailed {st : Standing} (sound : st.Sound) : { st with mail := [] }.Sound := by
  unfold Sound at sound ⊢
  cases hfate : st.account.fate with
  | awaiting r =>
    simp only [hfate] at sound ⊢
    exact ⟨sound.1, trivial⟩
  | replied r p =>
    simp only [hfate] at sound ⊢
    exact ⟨sound.1, .inl trivial⟩
  | _ =>
    simp only [hfate] at sound ⊢
    exact ⟨sound.1, trivial⟩

/-- A call that awaits no reply has no session. -/
theorem Sound.sessions_eq_nil {st : Standing} (sound : st.Sound) (settled : ∀ r, st.account.fate ≠ .awaiting r) :
    st.sessions = [] := by
  unfold Sound at sound
  cases fate : st.account.fate with
  | awaiting r => exact absurd fate (settled r)
  | _ =>
    simp only [fate] at sound
    exact sound.1

/-- A call that was not answered has no reply. -/
theorem Sound.mail_eq_nil {st : Standing} (sound : st.Sound) (unanswered : ∀ r p, st.account.fate ≠ .replied r p) :
    st.mail = [] := by
  unfold Sound at sound
  cases fate : st.account.fate with
  | replied r p => exact absurd fate (unanswered r p)
  | _ =>
    simp only [fate] at sound
    exact sound.2

namespace Drifts

variable {st st' : Standing} (drifts : st.Drifts st')
include drifts

theorem made : st'.account.made = st.account.made := by
  cases drifts with
  | stay account => rw [account]
  | closed _ _ account | removed _ _ account | handed _ _ _ account | met _ _ _ account => rw [account]

theorem failed : st'.account.failed = st.account.failed := by
  cases drifts with
  | stay account => rw [account]
  | closed _ _ account | removed _ _ account | handed _ _ _ account | met _ _ _ account => rw [account]

theorem began : st'.account.began = st.account.began := by
  cases drifts with
  | stay account => rw [account]
  | closed _ _ account | removed _ _ account | handed _ _ _ account | met _ _ _ account => rw [account]

theorem request? : st'.account.fate.request? = st.account.fate.request? := by
  cases drifts with
  | stay account => rw [account]
  | closed _ fate account | removed _ fate account | handed _ _ fate account | met _ _ fate account =>
    rw [account, fate]
    rfl

theorem of_not_awaiting (settled : ∀ r, st.account.fate ≠ .awaiting r) :
    st'.account = st.account ∧ st'.sessions = st.sessions ∧ st'.mail = st.mail := by
  cases drifts with
  | stay account sessions mail => exact ⟨account, sessions, mail⟩
  | closed r fate | removed r fate | handed r _ fate | met r _ fate => exact absurd fate (settled r)

end Drifts

theorem Listens.of_awaiting {st : Standing} {ticket : Nat} {request r : Packet}
    (listens : st.Listens ticket request) (fate : st.account.fate = .awaiting r) :
    r = request ∧ st.sessions = [(request.session, .waiting ticket true)] ∧ st.mail = [] := by
  cases listens with
  | awaiting hf hs hm => exact ⟨Fate.awaiting.inj (fate.symm.trans hf), hs, hm⟩
  | handed q hf hm => cases fate.symm.trans hf
  | closed hf hm => cases fate.symm.trans hf
  | removed hf hm => cases fate.symm.trans hf

theorem Listens.request? {st : Standing} {ticket : Nat} {request : Packet} (listens : st.Listens ticket request) :
    st.account.fate.request? = some request := by
  cases listens with
  | awaiting hf | handed _ hf | closed hf | removed hf =>
    rw [hf]
    rfl

theorem Listens.bereft {st : Standing} {ticket : Nat} {request : Packet} (listens : st.Listens ticket request)
    (mail : st.mail = []) (sessions : st.sessions = []) :
    st.account.fate = .closed request ∨ st.account.fate = .removed request := by
  cases listens with
  | awaiting _ hs => cases sessions.symm.trans hs
  | handed q _ hm => cases mail.symm.trans hm
  | closed hf => exact .inl hf
  | removed hf => exact .inr hf

theorem Listens.handed_of_mail {st : Standing} {ticket : Nat} {request : Packet} {p : Parcel}
    (listens : st.Listens ticket request) (mail : st.mail.head? = some p) :
    st.account.fate = .replied request p.toPacket ∧ st.mail = [p] := by
  cases listens with
  | handed q hf hm =>
    rw [hm] at mail
    obtain rfl : q = p := by simpa using mail
    exact ⟨hf, hm⟩
  | awaiting _ _ hm | closed _ hm | removed _ hm =>
    rw [hm] at mail
    cases mail

theorem Listens.awaiting_of_sessions {st : Standing} {ticket : Nat} {request : Packet}
    (listens : st.Listens ticket request) (sound : st.Sound) (held : st.sessions ≠ []) :
    st.account.fate = .awaiting request ∧ st.sessions = [(request.session, .waiting ticket true)] ∧
      st.mail = [] := by
  unfold Sound at sound
  cases listens with
  | awaiting hf hs hm => exact ⟨hf, hs, hm⟩
  | handed q hf | closed hf | removed hf =>
    rw [hf] at sound
    exact absurd sound.1 held

theorem Listens.congr {st st' : Standing} {ticket : Nat} {request : Packet} (listens : st.Listens ticket request)
    (fate : st'.account.fate = st.account.fate) (sessions : st'.sessions = st.sessions)
    (mail : st'.mail = st.mail) : st'.Listens ticket request := by
  cases listens with
  | awaiting hf hs hm => exact .awaiting (fate.trans hf) (sessions.trans hs) (mail.trans hm)
  | handed q hf hm => exact .handed q (fate.trans hf) (mail.trans hm)
  | closed hf hm => exact .closed (fate.trans hf) (mail.trans hm)
  | removed hf hm => exact .removed (fate.trans hf) (mail.trans hm)

theorem Listens.drift {st st' : Standing} {ticket : Nat} {request : Packet} (listens : st.Listens ticket request)
    (drifts : st.Drifts st') : st'.Listens ticket request := by
  cases drifts with
  | stay account sessions mail => exact listens.congr (congrArg Account.fate account) sessions mail
  | closed r hf account mail =>
    obtain ⟨rfl, -, hm⟩ := listens.of_awaiting hf
    exact .closed (congrArg Account.fate account) (mail.trans hm)
  | removed r hf account mail =>
    obtain ⟨rfl, -, hm⟩ := listens.of_awaiting hf
    exact .removed (congrArg Account.fate account) (mail.trans hm)
  | handed r q hf account mail =>
    obtain ⟨rfl, -, hm⟩ := listens.of_awaiting hf
    exact .handed q (congrArg Account.fate account) (by rw [mail, hm, List.nil_append])
  | met r p hf account deaf =>
    -- A response is dropped only where nobody listens.
    obtain ⟨rfl, hs, -⟩ := listens.of_awaiting hf
    exact absurd hs (deaf _ _)

end Standing

/-! ### What is in hand -/

/-- What the end of a session makes of a call. -/
def Fate.Decides (fate : Fate) (m : Outbound) (result : Except Fault Bytes) : Prop :=
  match fate with
  | .replied _ p => result = p.carried
  | .closed _ | .removed _ => result = .error (.notAnswered m.route)
  | _ => False

namespace Engine
namespace Token

/-- The ticket that a token is about. -/
def ticket : Token → Nat
  | .parcel => 0
  | .calling c | .sending c _ | .ending c _ _ => c.ticket
  | .watching w => w.pending.ticket
  | .asked t _ _ | .answering t _ => t
  | .placed _ pending | .promised _ pending | .owed pending => pending.ticket

/-- The token decides how the call with a ticket ends. -/
def holds (t : Nat) : Token → Bool
  | .parcel | .placed _ _ | .answering _ _ => false
  | k => k.ticket == t

/-- A token is true to the standing of its ticket. -/
def Fits (st : Standing) : Token → Prop
  | .parcel | .answering _ _ => True
  | .calling c =>
    st.account.made = some (.call c.message) ∧ st.account.failed = none ∧
    match c.phase with
    | .created => st.account.fate = .unregistered ∧ st.account.began = none
    | .waiting session deadline => c.message.Encodes ∧
      ∃ r now, r.session = session ∧ st.account.began = some now ∧ deadline = deadlineFrom now c.message ∧
        st.Listens c.ticket r
  | .sending c session =>
    st.account.made = some (.call c.message) ∧ st.account.failed = none ∧ st.account.began = none ∧
    c.message.Encodes ∧ ∃ r, r.session = session ∧ st.Listens c.ticket r
  | .ending c session result =>
    st.account.made = some (.call c.message) ∧ st.account.failed = none ∧ c.message.Encodes ∧
    st.account.began.isSome ∧ st.mail = [] ∧ st.account.fate.Decides c.message result ∧
    ∃ r, st.account.fate.request? = some r ∧ r.session = session
  | .watching w =>
    st.account.failed = none ∧ w.deadline = st.account.began.map (· + w.limit.nanoseconds) ∧
    (∃ m, st.account.made = some (.async m w.pending.callbacks) ∧ m.timeout = some w.limit) ∧
    st.Listens w.pending.ticket w.pending.request.toPacket
  | .asked _ m callbacks =>
    st.account.made = some (.async m callbacks) ∧ st.account.failed = none ∧ st.account.began = none ∧
    st.account.fate = .unregistered
  | .placed m pending =>
    st.account.made = some (.async m pending.callbacks) ∧ m.timeout = none ∧
    st.account.fate.request? = some pending.request.toPacket
  | .promised m pending =>
    st.account.made = some (.async m pending.callbacks) ∧ st.account.failed = none ∧ st.account.began = none ∧
    m.timeout.isSome ∧ st.Listens pending.ticket pending.request.toPacket
  | .owed pending =>
    (∃ m, st.account.made = some (.async m pending.callbacks) ∧ m.timeout = none) ∧
    st.account.fate = .closed pending.request.toPacket

/-- A call that waits listens for the reply to its request. -/
theorem Fits.listens {st : Standing} {c : Call} {session : UInt64} {deadline : Option (Nat × Duration)}
    (fits : (Token.calling c).Fits st) (phase : c.phase = .waiting session deadline) :
    ∃ r, r.session = session ∧ st.Listens c.ticket r := by
  obtain ⟨-, -, hphase⟩ := fits
  simp only [phase] at hphase
  obtain ⟨-, r, -, number, -, -, listens⟩ := hphase
  exact ⟨r, number, listens⟩

theorem Fits.unregistered {st : Standing} {c : Call} (fits : (Token.calling c).Fits st) (phase : c.phase = .created) :
    st.account.fate = .unregistered := by
  obtain ⟨-, -, hphase⟩ := fits
  simp only [phase] at hphase
  exact hphase.1

theorem Fits.drift {st st' : Standing} {k : Token} (fits : k.Fits st) (drifts : st.Drifts st') : k.Fits st' := by
  cases k with
  | parcel => trivial
  | answering t r => trivial
  | calling c =>
    obtain ⟨made, failed, phase⟩ := fits
    refine ⟨drifts.made.trans made, drifts.failed.trans failed, ?_⟩
    cases hphase : c.phase with
    | created =>
      simp only [hphase] at phase ⊢
      obtain ⟨fate, began⟩ := phase
      obtain ⟨account, -, -⟩ := drifts.of_not_awaiting (by simp [fate])
      exact ⟨by rw [account, fate], drifts.began.trans began⟩
    | waiting session deadline =>
      simp only [hphase] at phase ⊢
      obtain ⟨encodes, r, now, number, began, time, listens⟩ := phase
      exact ⟨encodes, r, now, number, drifts.began.trans began, time, listens.drift drifts⟩
  | sending c session =>
    obtain ⟨made, failed, began, encodes, r, number, listens⟩ := fits
    exact ⟨drifts.made.trans made, drifts.failed.trans failed, drifts.began.trans began, encodes, r, number,
      listens.drift drifts⟩
  | ending c session result =>
    obtain ⟨made, failed, encodes, began, mail, decides, r, request, number⟩ := fits
    -- What decided the result has settled the session, and a settled session does not drift.
    have settled : ∀ r, st.account.fate ≠ .awaiting r := by
      intro r h
      rw [h] at decides
      exact decides
    obtain ⟨account, -, mail'⟩ := drifts.of_not_awaiting settled
    rw [← account] at decides request
    exact ⟨drifts.made.trans made, drifts.failed.trans failed, encodes, drifts.began ▸ began, mail'.trans mail,
      decides, r, request, number⟩
  | watching w =>
    obtain ⟨failed, time, made, listens⟩ := fits
    exact ⟨drifts.failed.trans failed, drifts.began ▸ time, drifts.made ▸ made, listens.drift drifts⟩
  | asked t m callbacks =>
    obtain ⟨made, failed, began, fate⟩ := fits
    obtain ⟨account, -, -⟩ := drifts.of_not_awaiting (by simp [fate])
    exact ⟨drifts.made.trans made, drifts.failed.trans failed, drifts.began.trans began, by rw [account, fate]⟩
  | placed m pending =>
    obtain ⟨made, patient, request⟩ := fits
    exact ⟨drifts.made.trans made, patient, drifts.request?.trans request⟩
  | promised m pending =>
    obtain ⟨made, failed, began, timed, listens⟩ := fits
    exact ⟨drifts.made.trans made, drifts.failed.trans failed, drifts.began.trans began, timed,
      listens.drift drifts⟩
  | owed pending =>
    obtain ⟨made, fate⟩ := fits
    obtain ⟨account, -, -⟩ := drifts.of_not_awaiting (by simp [fate])
    exact ⟨drifts.made ▸ made, by rw [account, fate]⟩

/-- Whoever decides how callbacks without a time limit end looks only at what became of their session. -/
theorem Fits.of_patient {st st' : Standing} {k : Token} {t : Nat} {m : Outbound} {callbacks : List Program}
    (fits : k.Fits st) (holds : k.holds t = true) (made : st.account.made = some (.async m callbacks))
    (patient : m.timeout = none) (registered : st.account.fate ≠ .unregistered)
    (made' : st'.account.made = st.account.made) (fate' : st'.account.fate = st.account.fate) : k.Fits st' := by
  cases k with
  -- Only what comes with callbacks and no time limit is about such a call.
  | parcel | placed _ _ | answering _ _ => simp [Token.holds] at holds
  | calling c | sending c _ | ending c _ _ =>
    have := made.symm.trans fits.1
    simp at this
  | asked _ _ _ => exact absurd fits.2.2.2 registered
  | watching w =>
    obtain ⟨-, -, ⟨m', hmade, timed⟩, -⟩ := fits
    cases made.symm.trans hmade
    cases patient.symm.trans timed
  | promised m' pending =>
    obtain ⟨hmade, -, -, timed, -⟩ := fits
    cases made.symm.trans hmade
    simp [patient] at timed
  | owed pending =>
    obtain ⟨hmade, fate⟩ := fits
    exact ⟨made' ▸ hmade, fate'.trans fate⟩

/-- A token that does not decide how its call ends looks only at what is settled. -/
theorem Fits.extend {st st' : Standing} {k : Token} (fits : k.Fits st) (free : k.holds k.ticket = false)
    (further : st.account.Extends st'.account) : k.Fits st' := by
  cases k with
  | parcel => trivial
  | answering t r => trivial
  | placed m pending =>
    obtain ⟨made, patient, request⟩ := fits
    exact ⟨further.made made, patient, further.request request⟩
  | _ => simp [holds] at free

end Token
end Engine
end Switchboard
