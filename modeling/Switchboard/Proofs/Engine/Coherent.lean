import Switchboard.Proofs.Engine.Standing

/-! What a journal may say next. A journal that was written under these rules tells the story of every call:
    which event ended its session, and what came of that. -/

namespace Switchboard

/-- A packet is what the end of a session makes of callbacks. -/
def Account.Delivers (a : Account) (pending : Pending) (p : Packet) : Prop :=
  ∃ m, a.made = some (.async m pending.callbacks) ∧ a.fate.request? = some pending.request.toPacket ∧
    match a.fate with
    | .replied _ q => p = q
    | .closed r | .removed r => p = r.faultReply .closedWaiting
    | .expired r _ => ∃ limit, m.timeout = some limit ∧ p = r.faultReply (.waitTimedOut limit)
    | _ => False

/-- A result is what comes of a call whose journal is `J`. -/
inductive Concludes (J : List Entry) (ticket : Nat) (m : Outbound) (result : Except Fault Bytes) : Prop where
  | unencodable (fault : Fault) (body : m.body = .error fault) (fate : (account ticket J).fate = .unregistered)
      (eq : result = .error fault)
  | refused (encodes : m.Encodes) (closed : Entry.closed ∈ J) (fate : (account ticket J).fate = .unregistered)
      (eq : result = .error (.notSent m.route))
  | unsent (fault : Fault) (encodes : m.Encodes) (failed : (account ticket J).failed = some fault)
      (registered : (account ticket J).fate.request?.isSome) (eq : result = .error fault)
  | decided (encodes : m.Encodes) (written : (account ticket J).failed = none)
      (began : (account ticket J).began.isSome) (decides : (account ticket J).fate.Decides m result)
  | expired (encodes : m.Encodes) (written : (account ticket J).failed = none)
      (request : Packet) (now : Nat) (limit : Duration) (fate : (account ticket J).fate = .expired request now)
      (timed : m.timeout = some limit) (eq : result = .error (.callTimedOut m.route limit))

/-- After a journal an entry may be made. -/
def Admissible (setup : Setup) (J : List Entry) : Entry → Prop
  | .called t _ | .calledAsync t _ _ => (account t J).made = none
  | .began t _ => (account t J).began = none
  | .registered t _ => (account t J).fate = .unregistered
  | .matched t p =>
    p.command = .response ∧ (∃ r, (account t J).fate = .awaiting r ∧ r.session = p.session) ∧
    ∀ u r, (account u J).fate = .awaiting r → r.session = p.session → u = t
  | .unmatched p => p.command = .response ∧ ∀ u r, (account u J).fate = .awaiting r → r.session ≠ p.session
  | .expired t now =>
    (∃ r, (account t J).fate = .awaiting r) ∧
    ∃ made limit began, (account t J).made = some made ∧ made.message.timeout = some limit ∧
      (account t J).began = some began ∧ began + limit.nanoseconds ≤ now
  | .screened p => setup.hook = .replies → p.command ≠ .response
  | .delivered pending p =>
    (account pending.ticket J).ends = [] ∧ (account pending.ticket J).Delivers pending p
  | .finished t result =>
    (account t J).ends = [] ∧ ∃ m, (account t J).made = some (.call m) ∧ Concludes J t m result
  | .cancelled t => (account t J).ends = [] ∧ ∃ m, (account t J).made = some (.call m)
  | _ => True

/-- Every entry of a journal was admissible when it was made. -/
def Coherent (setup : Setup) : List Entry → Prop
  | [] => True
  | e :: earlier => Admissible setup earlier e ∧ Coherent setup earlier

variable {setup : Setup} {e : Entry} {J K : List Entry}

theorem Coherent.drop (h : Coherent setup (K ++ J)) : Coherent setup J := by
  induction K with
  | nil => exact h
  | cons e K ih => exact ih h.2

theorem Coherent.admissible (h : Coherent setup (K ++ e :: J)) : Admissible setup J e := h.drop.1

end Switchboard
