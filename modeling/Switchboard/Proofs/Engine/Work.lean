import Switchboard.Engine.Call

/-! Work that comes to its end. Work on a connection is a function on its state that may stop short; the
    statements here say what the state and the result are when it does not. -/

namespace Switchboard
namespace Engine

variable {α β : Type} {s t u : Engine} {a : α} {b : β}

/-! ### Parts of work -/

theorem bind_eq_ok {m : EngineM α} {f : α → EngineM β} :
    (m >>= f) s = .ok (b, u) ↔ ∃ a t, m s = .ok (a, t) ∧ f a t = .ok (b, u) := by
  change (m s >>= fun x => f x.1 x.2) = .ok (b, u) ↔ _
  cases m s with
  | error halt => simp [bind, Except.bind]
  | ok x =>
    obtain ⟨a, t⟩ := x
    constructor
    · intro h
      exact ⟨a, t, rfl, h⟩
    · rintro ⟨a', t', h, hf⟩
      cases h
      exact hf

theorem bind_of_ok {m : EngineM α} {f : α → EngineM β} (h : m s = .ok (a, t)) : (m >>= f) s = f a t := by
  change (m s >>= fun x => f x.1 x.2) = _
  rw [h]
  rfl

theorem bind_eq_bind {m m' : EngineM α} {f : α → EngineM β} (same : m s = m' t) : (m >>= f) s = (m' >>= f) t :=
  congrArg (fun x : Except Halt (α × Engine) => x >>= fun (a, u) => f a u) same

theorem map_eq_ok {m : EngineM α} {f : α → β} :
    (f <$> m) s = .ok (b, t) ↔ ∃ a, m s = .ok (a, t) ∧ f a = b := by
  change (m >>= fun a => pure (f a)) s = .ok (b, t) ↔ _
  rw [bind_eq_ok]
  constructor
  · rintro ⟨a, u, h, hf⟩
    cases hf
    exact ⟨a, h, rfl⟩
  · rintro ⟨a, h, rfl⟩
    exact ⟨a, t, h, rfl⟩

@[simp] theorem pure_eq_ok {a' : α} : (pure a : EngineM α) s = .ok (a', t) ↔ a = a' ∧ s = t := by
  change Except.ok (a, s) = .ok (a', t) ↔ _
  simp

@[simp] theorem get_eq_ok : (get : EngineM Engine) s = .ok (t, u) ↔ s = t ∧ s = u := by
  change Except.ok (s, s) = .ok (t, u) ↔ _
  simp

@[simp] theorem modify_eq_ok {f : Engine → Engine} {x : PUnit} :
    (modify f : EngineM PUnit) s = .ok (x, t) ↔ f s = t := by
  change Except.ok (PUnit.unit, f s) = .ok (x, t) ↔ _
  simp

@[simp] theorem modifyGet_eq_ok {f : Engine → α × Engine} :
    (modifyGet f : EngineM α) s = .ok (a, t) ↔ f s = (a, t) := by
  change Except.ok (f s) = .ok (a, t) ↔ _
  simp

@[simp] theorem throw_eq_ok {halt : Halt} : ¬(throw halt : EngineM α) s = .ok (a, t) := by
  change ¬Except.error halt = .ok (a, t)
  simp

/-! ### The small steps -/

@[simp] theorem record_eq_ok {e : Entry} {x : Unit} : record e s = .ok (x, t) ↔ s.note e = t := modify_eq_ok

@[simp] theorem putParcel_eq_ok {p : Parcel} {x : Unit} :
    putParcel p s = .ok (x, t) ↔ { s with issuer := s.issuer.put p } = t := modify_eq_ok

@[simp] theorem takeParcel_eq_ok {p : Parcel} :
    takeParcel s = .ok (p, t) ↔ s.issuer.get.1 = p ∧ { s with issuer := s.issuer.get.2 } = t := by
  simp [takeParcel]

@[simp] theorem answer_eq_ok {request : Packet} {metadata : Metadata} {p : Parcel} :
    answer request metadata s = .ok (p, t) ↔
      s.issuer.get.1.edit (·.answer request metadata) = p ∧ { s with issuer := s.issuer.get.2 } = t := by
  simp [answer, Issuer.answer]

@[simp] theorem takeContext_eq_ok {c : Context} :
    takeContext s = .ok (c, t) ↔ s.contexts.get.1 = c ∧ { s with contexts := s.contexts.get.2 } = t := by
  simp [takeContext]

@[simp] theorem putContext_eq_ok {c : Context} {x : Unit} :
    putContext c s = .ok (x, t) ↔ { s with contexts := s.contexts.put c } = t := modify_eq_ok

@[simp] theorem openTicket_eq_ok {n : Nat} :
    openTicket s = .ok (n, t) ↔ s.tickets = n ∧ { s with tickets := s.tickets + 1 } = t := by
  simp [openTicket]

@[simp] theorem takeSession_eq_ok {n : UInt64} {found : Option Session} :
    takeSession n s = .ok (found, t) ↔ s.table.find n = found ∧ { s with table := s.table.erase n } = t := by
  simp [takeSession]

@[simp] theorem discard_eq_ok {n : UInt64} {found : Option Session} :
    discard n s = .ok (found, t) ↔ s.table.find n = found ∧ s.strike n = t := by
  simp [discard]

@[simp] theorem takeMail_eq_ok {n : Nat} {found : Option Parcel} :
    takeMail n s = .ok (found, t) ↔ s.mail.lookup n = found ∧ s.unmail n = t := by
  simp [takeMail]

/-- A session is refused by a closed table, and else enrolled under a number that is not in use. -/
theorem register_cases {entry : Session} {request : Packet} {r : Registration}
    (h : register entry request s = .ok (r, t)) :
    (r = .refused ∧ s.table.closed = true ∧ t = s) ∨
    (r = .accepted ∧ s.table.closed = false ∧ s.table.find request.session = none ∧
      t = s.enroll entry request) := by
  unfold register at h
  obtain ⟨s₀, s₁, hget, h⟩ := bind_eq_ok.mp h
  obtain ⟨rfl, rfl⟩ := get_eq_ok.mp hget
  split at h
  · rename_i hclosed
    obtain ⟨rfl, rfl⟩ := pure_eq_ok.mp h
    exact .inl ⟨rfl, hclosed, rfl⟩
  · rename_i hopen
    split at h
    · exact absurd h throw_eq_ok
    · rename_i hfree
      obtain ⟨_, s₂, hmod, h⟩ := bind_eq_ok.mp h
      obtain ⟨rfl, rfl⟩ := pure_eq_ok.mp h
      exact .inr ⟨rfl, by simpa using hopen, by simpa using hfree, (modify_eq_ok.mp hmod).symm⟩

theorem register_of_closed {entry : Session} {request : Packet} (closed : s.table.closed = true) :
    register entry request s = .ok (.refused, s) := by
  unfold register
  rw [bind_of_ok (get_eq_ok.mpr ⟨rfl, rfl⟩)]
  simp only [closed, if_true]
  rfl

theorem register_of_open {entry : Session} {request : Packet} (isOpen : s.table.closed = false)
    (free : s.table.find request.session = none) :
    register entry request s = .ok (.accepted, s.enroll entry request) := by
  unfold register
  rw [bind_of_ok (get_eq_ok.mpr ⟨rfl, rfl⟩)]
  simp only [isOpen, free, Option.isSome_none, Bool.false_eq_true, if_false]
  rfl

theorem register_of_taken {entry : Session} {request : Packet} (isOpen : s.table.closed = false)
    (taken : s.table.find request.session ≠ none) :
    register entry request s = .error (.sessionInUse request.session s.issuer.drawn) := by
  unfold register
  rw [bind_of_ok (get_eq_ok.mpr ⟨rfl, rfl⟩)]
  simp only [isOpen, Option.isSome_iff_ne_none.mpr taken, Bool.false_eq_true, if_false, if_true]
  rfl

/-- What is taken out of the pool for a message: a packet under the next number. -/
theorem issue_eq_ok {command : Command} {m : Outbound} {p : Parcel} (h : issue command m s = .ok (p, t)) :
    p.command = command ∧ p.session = UInt64.ofNat (s.issuer.drawn + 1) ∧
      t = { s with issuer := { s.issuer.get.2 with drawn := s.issuer.drawn + 1 } } := by
  simp only [issue, modifyGet_eq_ok, Issuer.issue, Issuer.nextSession, Issuer.get, Prod.mk.injEq] at h
  obtain ⟨rfl, rfl⟩ := h
  refine ⟨?_, ?_, rfl⟩
  · cases m.route <;> rfl
  · rfl

end Engine
end Switchboard
