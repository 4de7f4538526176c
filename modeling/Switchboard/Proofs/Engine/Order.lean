import Switchboard.Proofs.Engine.Coherent

/-! In what order things happened to a call. The first thing that could end a session did end it, and a
    coherent journal has no response under its number before that. -/

namespace Switchboard

/-! ### Kinds of entries -/

/-- What happened ends the session of a ticket, if it has one. -/
def Entry.parts (ticket : Nat) : Entry → Bool
  | .matched t _ | .expired t _ | .removed t => t == ticket
  | .closed => true
  | _ => false

/-- A response under a number was intercepted. -/
def Entry.intercepts (n : UInt64) : Entry → Bool
  | .matched _ p | .unmatched p => p.session == n
  | _ => false

/-- A response ended the session of a ticket. -/
def Entry.meets (ticket : Nat) : Entry → Bool
  | .matched t _ => t == ticket
  | _ => false

/-- A call came back to its caller, or its callbacks were run. -/
def Entry.completes (ticket : Nat) : Entry → Bool
  | .finished t _ => t == ticket
  | .delivered pending _ => pending.ticket == ticket
  | _ => false

/-- A call was completed or given up. -/
def Entry.finals (ticket : Nat) (e : Entry) : Bool :=
  e.completes ticket || match e with
    | .cancelled t => t == ticket
    | _ => false

/-! ### What ended a session -/

/-- A request was registered for a ticket, and its session has not ended. -/
def Awaits (J : List Entry) (ticket : Nat) (request : Packet) : Prop :=
  ∃ since earlier, J = since ++ .registered ticket request :: earlier ∧ ∀ e ∈ since, e.parts ticket = false

/-- The first thing after the registration of a request that could end its session. -/
def EndedBy (J : List Entry) (ticket : Nat) (request : Packet) (e : Entry) : Prop :=
  ∃ later since earlier, J = later ++ e :: (since ++ .registered ticket request :: earlier) ∧
    e.parts ticket = true ∧ ∀ e' ∈ since, e'.parts ticket = false

/-- The first response that was intercepted under the number of a request after the request was registered,
    while its session was there. -/
structure FirstReply (J : List Entry) (ticket : Nat) (request reply : Packet) : Prop where
  response : reply.command = .response
  number : reply.session = request.session
  first : ∃ later since earlier,
    J = later ++ .matched ticket reply :: (since ++ .registered ticket request :: earlier) ∧
      ∀ e ∈ since, e.parts ticket = false ∧ e.intercepts request.session = false

/-- The journal tells how a session came to its fate. -/
def Fate.Told (J : List Entry) (ticket : Nat) : Fate → Prop
  | .unregistered => ∀ r, Entry.registered ticket r ∉ J
  | .awaiting r => Awaits J ticket r
  | .replied r p => EndedBy J ticket r (.matched ticket p)
  | .closed r => EndedBy J ticket r .closed
  | .expired r now => EndedBy J ticket r (.expired ticket now)
  | .removed r => EndedBy J ticket r (.removed ticket)

section

variable {setup : Setup} {J K : List Entry} {e : Entry} {t : Nat} {r p : Packet}

theorem EndedBy.mem (h : EndedBy J t r e) : e ∈ J := by
  obtain ⟨later, since, earlier, rfl, -⟩ := h
  exact List.mem_append_right later List.mem_cons_self

theorem EndedBy.append (h : EndedBy J t r e) : EndedBy (K ++ J) t r e := by
  obtain ⟨later, since, earlier, rfl, parts, none⟩ := h
  exact ⟨K ++ later, since, earlier, (List.append_assoc _ _ _).symm, parts, none⟩

theorem Awaits.cons (h : Awaits J t r) (stays : e.parts t = false) : Awaits (e :: J) t r := by
  obtain ⟨since, earlier, rfl, none⟩ := h
  refine ⟨e :: since, earlier, rfl, ?_⟩
  intro e' he'
  rcases List.mem_cons.mp he' with rfl | he'
  · exact stays
  · exact none e' he'

theorem Awaits.ended (h : Awaits J t r) (ends : e.parts t = true) : EndedBy (e :: J) t r e := by
  obtain ⟨since, earlier, rfl, none⟩ := h
  exact ⟨[], since, earlier, rfl, ends, none⟩

theorem EndedBy.cons {e' : Entry} (h : EndedBy J t r e) : EndedBy (e' :: J) t r e := by
  obtain ⟨later, since, earlier, rfl, ends, none⟩ := h
  exact ⟨e' :: later, since, earlier, rfl, ends, none⟩

/-- What is told of a session stays told while nothing registers or ends it. -/
theorem Fate.Told.cons {fate : Fate} (h : fate.Told J t) (stays : e.parts t = false)
    (plain : ∀ r, e ≠ .registered t r) : fate.Told (e :: J) t := by
  cases fate with
  | unregistered =>
    intro r hr
    rcases List.mem_cons.mp hr with rfl | hr
    · exact plain r rfl
    · exact h r hr
  | awaiting r => exact Awaits.cons h stays
  | replied r p => exact EndedBy.cons h
  | closed r => exact EndedBy.cons h
  | expired r now => exact EndedBy.cons h
  | removed r => exact EndedBy.cons h

/-- What ends a session is told of it, if it has not ended before. -/
theorem Fate.Told.settle {fate : Fate} (h : fate.Told J t) (ends : e.parts t = true)
    (how : Packet → Fate) (told : ∀ r, EndedBy (e :: J) t r e → (how r).Told (e :: J) t)
    (plain : ∀ r, e ≠ .registered t r) : (fate.settle how).Told (e :: J) t := by
  cases fate with
  | unregistered =>
    intro r hr
    rcases List.mem_cons.mp hr with rfl | hr
    · exact plain r rfl
    · exact h r hr
  | awaiting r => exact told r (Awaits.ended h ends)
  | replied r p => exact EndedBy.cons h
  | closed r => exact EndedBy.cons h
  | expired r now => exact EndedBy.cons h
  | removed r => exact EndedBy.cons h

/-- A session is registered at most once. -/
theorem Fate.Told.register {fate : Fate} (h : fate.Told J t) :
    (fate.register r).Told (.registered t r :: J) t := by
  cases fate with
  | unregistered => exact ⟨[], J, rfl, by simp⟩
  | awaiting r => exact Awaits.cons h rfl
  | replied r p => exact EndedBy.cons h
  | closed r => exact EndedBy.cons h
  | expired r now => exact EndedBy.cons h
  | removed r => exact EndedBy.cons h

theorem Entry.not_parts_of_not_concerns (h : e.concerns t = false) : e.parts t = false := by
  cases e <;> first | rfl | exact h

/-- The account of a call is what its journal tells. -/
theorem told_fate (J : List Entry) (t : Nat) : (account t J).fate.Told J t := by
  -- The newest entry comes first: what it does to the fate is told by it, what it leaves alone is told by the rest.
  induction J with
  | nil => simp [Fate.Told]
  | cons e J ih =>
    cases hconcerns : e.concerns t with
    | false =>
      rw [account_cons_of_not hconcerns]
      refine ih.cons (Entry.not_parts_of_not_concerns hconcerns) ?_
      rintro r rfl
      simp [Entry.concerns] at hconcerns
    | true =>
      rw [account_cons_of_concerns hconcerns]
      cases e with
      | registered u r =>
        obtain rfl : u = t := beq_iff_eq.mp hconcerns
        exact ih.register
      | matched u p =>
        obtain rfl : u = t := beq_iff_eq.mp hconcerns
        exact ih.settle (beq_self_eq_true _) _ (fun _ h => h) (by simp)
      | expired u now =>
        obtain rfl : u = t := beq_iff_eq.mp hconcerns
        exact ih.settle (beq_self_eq_true _) _ (fun _ h => h) (by simp)
      | removed u =>
        obtain rfl : u = t := beq_iff_eq.mp hconcerns
        exact ih.settle (beq_self_eq_true _) _ (fun _ h => h) (by simp)
      | closed => exact ih.settle rfl _ (fun _ h => h) (by simp)
      | _ => exact ih.cons rfl (by simp)

/-! ### What stays said -/

/-- A session that ended has ended for good. -/
theorem fate_append (settled : ∀ r, (account t J).fate ≠ .awaiting r) (there : (account t J).fate ≠ .unregistered) :
    (account t (K ++ J)).fate = (account t J).fate := by
  induction K with
  | nil => rfl
  | cons e K ih =>
    rw [List.cons_append]
    cases hconcerns : e.concerns t with
    | false =>
      rw [account_cons_of_not hconcerns]
      exact ih
    | true =>
      rw [account_cons_of_concerns hconcerns]
      have settled : ∀ r, (account t (K ++ J)).fate ≠ .awaiting r := fun r => ih ▸ settled r
      have there : (account t (K ++ J)).fate ≠ .unregistered := ih ▸ there
      rw [← ih]
      -- Every way of settling a session asks for one that awaits its reply, and there is none.
      cases e with
      | registered u request =>
        cases hfate : (account t (K ++ J)).fate <;> simp_all [Account.told, Fate.register]
      | matched u p => cases hfate : (account t (K ++ J)).fate <;> simp_all [Account.told, Fate.settle]
      | expired u now => cases hfate : (account t (K ++ J)).fate <;> simp_all [Account.told, Fate.settle]
      | removed u => cases hfate : (account t (K ++ J)).fate <;> simp_all [Account.told, Fate.settle]
      | closed => cases hfate : (account t (K ++ J)).fate <;> simp_all [Account.told, Fate.settle]
      | _ => rfl

theorem ends_eq_filter : (account t J).ends = J.filter (·.finals t) := by
  induction J with
  | nil => rfl
  | cons e J ih =>
    cases hconcerns : e.concerns t with
    | false =>
      have : e.finals t = false := by
        cases e <;> first | rfl | (simpa [Entry.concerns, Entry.finals, Entry.completes] using hconcerns)
      rw [account_cons_of_not hconcerns, List.filter_cons_of_neg (by simp [this]), ih]
    | true =>
      rw [account_cons_of_concerns hconcerns]
      cases e with
      | finished u result | delivered pending p | cancelled u =>
        rw [List.filter_cons_of_pos (by simpa [Entry.concerns, Entry.finals, Entry.completes] using hconcerns), ← ih]
        rfl
      | _ => exact ih.trans (List.filter_cons_of_neg (by simp [Entry.finals, Entry.completes])).symm

theorem cancelled_mem_ends : Entry.cancelled t ∈ (account t J).ends ↔ Entry.cancelled t ∈ J := by
  rw [ends_eq_filter, List.mem_filter]
  simp [Entry.finals]

/-- What an account says first, an entry of the journal said. -/
theorem mem_of_said {α : Type} {x : α} (field : Account → Option α) (word : Entry → Option α)
    (none : field {} = none) (told : ∀ a e, field (a.told e) = (field a).or (word e))
    (h : field (account t J) = some x) : ∃ e ∈ J, e.concerns t = true ∧ word e = some x := by
  induction J with
  | nil =>
    rw [account_nil, none] at h
    cases h
  | cons e J ih =>
    have later : field (account t J) = some x → ∃ e' ∈ e :: J, e'.concerns t = true ∧ word e' = some x := by
      intro h
      obtain ⟨e', he', hconcerns, hword⟩ := ih h
      exact ⟨e', List.mem_cons_of_mem e he', hconcerns, hword⟩
    cases hconcerns : e.concerns t with
    | false =>
      rw [account_cons_of_not hconcerns] at h
      exact later h
    | true =>
      rw [account_cons_of_concerns hconcerns, told] at h
      -- The first word counts: only if nothing was said before does the newest entry matter.
      cases hfield : field (account t J) with
      | none =>
        rw [hfield] at h
        exact ⟨e, List.mem_cons_self, hconcerns, h⟩
      | some y =>
        rw [hfield] at h
        cases h
        exact later hfield

/-- What an account says it goes on saying. -/
theorem said_append {α : Type} {x : α} (field : Account → Option α) (word : Entry → Option α)
    (told : ∀ a e, field (a.told e) = (field a).or (word e)) (h : field (account t J) = some x) :
    field (account t (K ++ J)) = some x := by
  induction K with
  | nil => exact h
  | cons e K ih =>
    rw [List.cons_append]
    cases hconcerns : e.concerns t with
    | false =>
      rw [account_cons_of_not hconcerns]
      exact ih
    | true =>
      rw [account_cons_of_concerns hconcerns, told, ih]
      rfl

/-- What an entry of the journal said, the account says, or something said before. -/
theorem said_of_mem {α : Type} (field : Account → Option α) (word : Entry → Option α)
    (told : ∀ a e, field (a.told e) = (field a).or (word e)) (he : e ∈ J) (concerns : e.concerns t = true)
    (said : (word e).isSome) : (field (account t J)).isSome := by
  induction J with
  | nil => cases he
  | cons e' J ih =>
    cases hconcerns : e'.concerns t with
    | false =>
      rw [account_cons_of_not hconcerns]
      rcases List.mem_cons.mp he with rfl | he
      · rw [concerns] at hconcerns
        cases hconcerns
      · exact ih he
    | true =>
      rw [account_cons_of_concerns hconcerns, told]
      rcases List.mem_cons.mp he with rfl | he
      · simp [said]
      · simp [ih he]

theorem failed_of_mem {fault : Fault} (h : .unsent t fault ∈ J) : (account t J).failed.isSome :=
  said_of_mem Account.failed
    (fun e => match e with
      | .unsent _ fault => some fault
      | _ => none) (by intro a e; cases e <;> simp [Account.told]) h (beq_self_eq_true _) rfl

theorem mem_of_failed {fault : Fault} (h : (account t J).failed = some fault) : .unsent t fault ∈ J := by
  obtain ⟨e, he, hconcerns, hword⟩ := mem_of_said Account.failed
    (fun e => match e with
      | .unsent _ fault => some fault
      | _ => none) rfl (by intro a e; cases e <;> simp [Account.told]) h
  cases e with
  | unsent u f =>
    cases hword
    obtain rfl : u = t := beq_iff_eq.mp hconcerns
    exact he
  | _ => cases hword

theorem mem_of_began {now : Nat} (h : (account t J).began = some now) : .began t now ∈ J := by
  obtain ⟨e, he, hconcerns, hword⟩ := mem_of_said Account.began
    (fun e => match e with
      | .began _ now => some now
      | _ => none) rfl (by intro a e; cases e <;> simp [Account.told]) h
  cases e with
  | began u now' =>
    cases hword
    obtain rfl : u = t := beq_iff_eq.mp hconcerns
    exact he
  | _ => cases hword

theorem mem_of_request (h : (account t J).fate.request? = some r) : .registered t r ∈ J := by
  have told := told_fate J t
  cases hfate : (account t J).fate with
  | unregistered =>
    rw [hfate] at h
    cases h
  | awaiting q =>
    rw [hfate] at h told
    cases h
    obtain ⟨since, earlier, rfl, -⟩ := told
    simp
  | replied q p | closed q | expired q now | removed q =>
    rw [hfate] at h told
    cases h
    obtain ⟨later, since, earlier, rfl, -⟩ := told
    simp

/-- How the journal has it that a call was made. -/
def Made.entry (ticket : Nat) : Made → Entry
  | .call m => .called ticket m
  | .async m callbacks => .calledAsync ticket m callbacks

theorem mem_of_made {made : Made} (h : (account t J).made = some made) : made.entry t ∈ J := by
  obtain ⟨e, he, hconcerns, hword⟩ := mem_of_said Account.made
    (fun e => match e with
      | .called _ m => some (.call m)
      | .calledAsync _ m callbacks => some (.async m callbacks)
      | _ => none) rfl (by intro a e; cases e <;> simp [Account.told]) h
  cases e with
  | called u m | calledAsync u m callbacks =>
    cases hword
    obtain rfl : u = t := beq_iff_eq.mp hconcerns
    exact he
  | _ => cases hword

/-! ### What a coherent journal tells -/

/-- A session that nothing has ended is still there. -/
theorem Awaits.fate (h : Awaits J t r) (coherent : Coherent setup J) : (account t J).fate = .awaiting r := by
  obtain ⟨since, earlier, rfl, none⟩ := h
  induction since with
  | nil =>
    have fate : (account t earlier).fate = .unregistered := coherent.1
    rw [List.nil_append, account_cons_of_concerns (beq_self_eq_true _)]
    change Fate.register r (account t earlier).fate = _
    rw [fate]
    rfl
  | cons e since ih =>
    have ih := ih (fun e' he' => none e' (List.mem_cons_of_mem e he')) coherent.2
    have stays := none e List.mem_cons_self
    rw [List.cons_append]
    cases hconcerns : e.concerns t with
    | false =>
      rw [account_cons_of_not hconcerns]
      exact ih
    | true =>
      rw [account_cons_of_concerns hconcerns]
      cases e with
      | registered u request =>
        change Fate.register request (account t (since ++ _)).fate = _
        rw [ih]
        rfl
      | matched u p | expired u now | removed u => exact absurd hconcerns (by simpa [Entry.concerns, Entry.parts] using stays)
      -- Of the entries since the registration none ends a session, closing included.
      | closed => cases stays
      | _ => exact ih

namespace Coherent

/-- A call is made once. -/
theorem made_of_mem (coherent : Coherent setup J) {made : Made} (h : made.entry t ∈ J) :
    (account t J).made = some made := by
  obtain ⟨later, earlier, rfl⟩ := List.append_of_mem h
  have unmade : (account t earlier).made = none := by
    have := coherent.admissible
    cases made <;> exact this
  have said : (account t (made.entry t :: earlier)).made = some made := by
    rw [account_cons_of_concerns (by cases made <;> exact beq_self_eq_true _)]
    cases made <;> simp [Made.entry, Account.told, unmade]
  exact (extends_account later (made.entry t :: earlier)).made said

/-- A wait begins once. -/
theorem began_of_mem (coherent : Coherent setup J) {now : Nat} (h : .began t now ∈ J) :
    (account t J).began = some now := by
  obtain ⟨later, earlier, rfl⟩ := List.append_of_mem h
  have unsaid : (account t earlier).began = none := coherent.admissible
  refine said_append Account.began
    (fun e => match e with
      | .began _ now => some now
      | _ => none) (by intro a e; cases e <;> simp [Account.told]) ?_
  rw [account_cons_of_concerns (beq_self_eq_true _)]
  change (account t earlier).began.or (some now) = _
  rw [unsaid]
  rfl

/-- A request is registered once. -/
theorem request_of_mem (coherent : Coherent setup J) (h : .registered t r ∈ J) :
    (account t J).fate.request? = some r := by
  obtain ⟨later, earlier, rfl⟩ := List.append_of_mem h
  have fate : (account t earlier).fate = .unregistered := coherent.admissible
  refine (extends_account later (.registered t r :: earlier)).request ?_
  rw [account_cons_of_concerns (beq_self_eq_true _)]
  change (Fate.register r (account t earlier).fate).request? = _
  rw [fate]
  rfl

/-- A response that meets the session of a call is its reply. -/
theorem fate_of_matched (coherent : Coherent setup J) (h : .matched t p ∈ J) :
    ∃ r, (account t J).fate = .replied r p := by
  obtain ⟨later, earlier, rfl⟩ := List.append_of_mem h
  obtain ⟨-, ⟨r, fate, -⟩, -⟩ := coherent.admissible
  have replied : (account t (.matched t p :: earlier)).fate = .replied r p := by
    rw [account_cons_of_concerns (beq_self_eq_true _), Account.told_matched fate]
  exact ⟨r, (fate_append (by simp [replied]) (by simp [replied])).trans replied⟩

/-- The session of a call meets one response at most. -/
theorem countP_meets (coherent : Coherent setup J) (t : Nat) : J.countP (·.meets t) ≤ 1 := by
  induction J with
  | nil => exact Nat.zero_le _
  | cons e J ih =>
    have ih := ih coherent.2
    cases hmeets : e.meets t with
    | false =>
      rw [List.countP_cons_of_neg (by simp [hmeets])]
      exact ih
    | true =>
      rw [List.countP_cons_of_pos (by simp [hmeets])]
      cases e with
      | matched u p =>
        obtain rfl : u = t := beq_iff_eq.mp hmeets
        obtain ⟨-, ⟨r, fate, -⟩, -⟩ := coherent.1
        have none : J.countP (·.meets u) = 0 := by
          refine List.countP_eq_zero.mpr fun e he hmeets => ?_
          cases e with
          | matched v q =>
            obtain rfl : v = u := beq_iff_eq.mp hmeets
            obtain ⟨r', fate'⟩ := coherent.2.fate_of_matched he
            rw [fate] at fate'
            cases fate'
          | _ => cases hmeets
        omega
      | _ => cases hmeets

/-- While a request awaits its reply, no response under its number is intercepted. -/
theorem unintercepted {since earlier : List Entry} (coherent : Coherent setup (since ++ .registered t r :: earlier))
    (none : ∀ e ∈ since, e.parts t = false) : ∀ e ∈ since, e.intercepts r.session = false := by
  intro e he
  obtain ⟨after, before, rfl⟩ := List.append_of_mem he
  have waits : Awaits (before ++ .registered t r :: earlier) t r :=
    ⟨before, earlier, rfl, fun e' he' => none e' (List.mem_append_right _ (List.mem_cons_of_mem e he'))⟩
  have said : Coherent setup (after ++ e :: (before ++ .registered t r :: earlier)) := by simpa using coherent
  have still := waits.fate said.drop.2
  cases e with
  | matched u q =>
    by_contra hsession
    have hsession : q.session = r.session := beq_iff_eq.mp (Bool.eq_true_of_not_eq_false hsession)
    obtain ⟨-, -, only⟩ := said.admissible
    obtain rfl : t = u := only t r still hsession.symm
    have parts : (t == t) = false := none _ he
    simp at parts
  | unmatched q =>
    obtain ⟨-, others⟩ := said.admissible
    exact beq_eq_false_iff_ne.mpr (others t r still).symm
  | _ => rfl

/-- The reply to a call is the first response under the number of its request. -/
theorem firstReply (coherent : Coherent setup J) (fate : (account t J).fate = .replied r p) :
    FirstReply J t r p := by
  have told := told_fate J t
  rw [fate] at told
  obtain ⟨later, since, earlier, rfl, -, none⟩ := told
  obtain ⟨response, ⟨r', fate', number⟩, -⟩ := coherent.admissible
  have waits : Awaits (since ++ .registered t r :: earlier) t r := ⟨since, earlier, rfl, none⟩
  obtain rfl : r' = r := Fate.awaiting.inj (fate'.symm.trans (waits.fate coherent.drop.2))
  exact ⟨response, number.symm, later, since, earlier, rfl, fun e he =>
    ⟨none e he, coherent.drop.2.unintercepted none e he⟩⟩

end Coherent

end

end Switchboard
