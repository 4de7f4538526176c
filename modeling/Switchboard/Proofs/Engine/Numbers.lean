import Mathlib.Algebra.Group.Nat.Defs
import Switchboard.Proofs.Engine.Preservation

/-! The numbers of requests. As long as no more than `2 ^ 64` of them were drawn, no two requests have the
    same, and a call that takes its session out of the table finds its own there or none. -/

namespace Switchboard

/-- An entry registers a request. -/
def Entry.registers : Entry → Bool
  | .registered _ _ => true
  | _ => false

theorem Account.request?_told {a : Account} {e : Entry} (h : e.registers = false) :
    (a.told e).fate.request? = a.fate.request? := by
  cases e with
  | registered t r => cases h
  | matched t p => exact Fate.request?_settle fun _ => rfl
  | expired t now => exact Fate.request?_settle fun _ => rfl
  | removed t => exact Fate.request?_settle fun _ => rfl
  | closed => exact Fate.request?_settle fun _ => rfl
  | _ => rfl

theorem request?_append {t : Nat} {J K : List Entry} (h : ∀ e ∈ K, e.registers = false) :
    (account t (K ++ J)).fate.request? = (account t J).fate.request? := by
  induction K with
  | nil => rfl
  | cons e K ih =>
    have ih := ih fun e' he' => h e' (List.mem_cons_of_mem e he')
    rw [List.cons_append]
    cases hconcerns : e.concerns t with
    | true =>
      rw [account_cons_of_concerns hconcerns, Account.request?_told (h e List.mem_cons_self)]
      exact ih
    | false =>
      rw [account_cons_of_not hconcerns]
      exact ih

namespace Engine

variable {setup : Setup} {s s' : Engine} {H K F taken given : Hands} {n : UInt64} {t u : Nat}

theorem strike_journal : ∃ es, (s.strike n).journal = es ++ s.journal ∧ ∀ e ∈ es, ∃ t, e = .removed t := by
  cases found : s.table.find n with
  | none => exact ⟨[], by rw [strike_of_find found]; rfl, by simp⟩
  | some entry =>
    rw [strike_of_some found]
    exact ⟨[.removed entry.ticket], rfl, by simp⟩

/-- What a move adds to the journal registers nothing, unless the move enrolls a request. -/
theorem Move.story (m : Move setup s taken s' given) :
    (∃ es, s'.journal = es ++ s.journal ∧ (∀ e ∈ es, e.registers = false) ∧
      s.issuer.drawn ≤ s'.issuer.drawn) ∨
    ∃ entry request, Enrolls s request ∧ s' = s.draw.enroll entry request := by
  have struck : ∀ (a : Engine) (k : List Entry) (n : UInt64), a.journal = k ++ s.journal →
      (∀ e ∈ k, e.registers = false) →
      ∃ es, (a.strike n).journal = es ++ s.journal ∧ ∀ e ∈ es, e.registers = false := by
    intro a k n hk hplain
    obtain ⟨es, hes, hremoved⟩ := strike_journal (s := a) (n := n)
    refine ⟨es ++ k, by rw [hes, hk, List.append_assoc], ?_⟩
    intro e he
    rcases List.mem_append.mp he with he | he
    · obtain ⟨t, rfl⟩ := hremoved e he
      rfl
    · exact hplain e he
  cases m with
  | enrollCall phase encodes enrolls => exact .inr ⟨_, _, enrolls, rfl⟩
  | enrollCallbacks patient enrolls => exact .inr ⟨_, _, enrolls, rfl⟩
  | enrollWait timed enrolls => exact .inr ⟨_, _, enrolls, rfl⟩
  | draw => exact .inl ⟨[], rfl, by simp, Nat.le_succ _⟩
  | note plain =>
    rename_i e
    refine .inl ⟨[e], rfl, ?_, Nat.le_refl _⟩
    intro e' he'
    rw [List.mem_singleton.mp he']
    cases e <;> first | rfl | exact plain.elim
  | finish c session result =>
    obtain ⟨es, hes, plain⟩ := struck (s.note _) [.finished c.ticket result] session rfl (by simp [Entry.registers])
    exact .inl ⟨es, hes, plain, Nat.le_refl _⟩
  | failCall c session fault =>
    obtain ⟨es, hes, plain⟩ := struck ((s.note _).note _) [.finished c.ticket (.error fault), .unsent c.ticket fault]
      session rfl (by simp [Entry.registers])
    exact .inl ⟨es, hes, plain, Nat.le_refl _⟩
  | expire phase held late =>
    rename_i c session deadline now limit
    obtain ⟨es, hes, plain⟩ := struck ((s.note _).note _)
      [.finished c.ticket (.error (.callTimedOut c.message.route limit)), .expired c.ticket now]
      session rfl (by simp [Entry.registers])
    exact .inl ⟨es, hes, plain, Nat.le_refl _⟩
  | cancel phase =>
    rename_i c session deadline
    obtain ⟨es, hes, plain⟩ := struck (s.note _) [.cancelled c.ticket] session rfl (by simp [Entry.registers])
    exact .inl ⟨es, hes, plain, Nat.le_refl _⟩
  | expireWait held begun late =>
    rename_i w now deadline
    obtain ⟨es, hes, plain⟩ := struck (s.note _) [.expired w.pending.ticket now] w.pending.request.session rfl
      (by simp [Entry.registers])
    refine .inl ⟨.delivered w.pending (w.pending.request.toPacket.faultReply (.waitTimedOut w.limit)) :: es,
      congrArg (_ :: ·) hes, ?_, Nat.le_refl _⟩
    intro e he
    rcases List.mem_cons.mp he with rfl | he
    · rfl
    · exact plain e he
  | fail fault found =>
    rename_i m pending entry
    obtain ⟨es, hes, plain⟩ := struck (s.note _) [.unsent pending.ticket fault] pending.request.session rfl
      (by simp [Entry.registers])
    exact .inl ⟨es, hes, plain, Nat.le_refl _⟩
  | failWait m pending fault =>
    obtain ⟨es, hes, plain⟩ := struck (s.note _) [.unsent pending.ticket fault] pending.request.session rfl
      (by simp [Entry.registers])
    exact .inl ⟨es, hes, plain, Nat.le_refl _⟩
  | take | put | contexts | load | writes | takeCall | keepCall | takeWait | keepWait | collect | bereave |
    refuse | accept | watch | forsake => exact .inl ⟨[], rfl, by simp, Nat.le_refl _⟩
  | call | ask | matchWaiting | matchNobody | pass | close | settle | refuseCall | beginCall | cancelEarly |
    beginWait | collectWait | bereaveWait | failLate | answer =>
    exact .inl ⟨[_], rfl, by simp [Entry.registers], Nat.le_refl _⟩
  | matchCallbacks => exact .inl ⟨[_, _], rfl, by simp [Entry.registers], Nat.le_refl _⟩

/-- A move only adds to the journal. -/
theorem Move.journal (m : Move setup s taken s' given) : ∃ es, s'.journal = es ++ s.journal := by
  rcases m.story with ⟨es, hes, -⟩ | ⟨entry, request, -, rfl⟩
  · exact ⟨es, hes⟩
  · exact ⟨[.registered entry.ticket request], rfl⟩

theorem Move.drawn (m : Move setup s taken s' given) : s.issuer.drawn ≤ s'.issuer.drawn := by
  rcases m.story with ⟨es, -, -, h⟩ | ⟨entry, request, -, rfl⟩
  · exact h
  · exact Nat.le_succ _

theorem Moves.journal (m : Moves setup s H s' K) : ∃ es, s'.journal = es ++ s.journal := by
  induction m with
  | refl => exact ⟨[], rfl⟩
  | tail F _ last ih =>
    obtain ⟨es, hes⟩ := ih
    obtain ⟨es', hes'⟩ := last.journal
    exact ⟨es' ++ es, by rw [hes', hes, List.append_assoc]⟩

theorem Moves.drawn (m : Moves setup s H s' K) : s.issuer.drawn ≤ s'.issuer.drawn := by
  induction m with
  | refl => exact Nat.le_refl _
  | tail F _ last ih => exact ih.trans last.drawn

/-! ### Distinct numbers -/

/-- How many numbers there are. -/
def numbers : Nat := 2 ^ 64

/-- Every request has a number of its own, drawn for it. -/
structure Numbered (s : Engine) : Prop where
  issued : ∀ {t r}, (account t s.journal).fate.request? = some r →
    ∃ k, 1 ≤ k ∧ k ≤ s.issuer.drawn ∧ r.session = UInt64.ofNat k
  distinct : ∀ {t u r r'}, (account t s.journal).fate.request? = some r →
    (account u s.journal).fate.request? = some r' → r.session = r'.session → t = u

theorem ofNat_inj {a b : Nat} (ha : 1 ≤ a) (ha' : a ≤ numbers) (hb : 1 ≤ b) (hb' : b ≤ numbers)
    (h : UInt64.ofNat a = UInt64.ofNat b) : a = b := by
  have h : a % 2 ^ 64 = b % 2 ^ 64 := by
    have := congrArg UInt64.toNat h
    rwa [UInt64.toNat_ofNat', UInt64.toNat_ofNat'] at this
  unfold numbers at ha' hb'
  omega

theorem Move.numbered (m : Move setup s taken s' given) (coherent : Coherent setup s'.journal)
    (few : s'.issuer.drawn ≤ numbers) (numbered : Numbered s) : Numbered s' := by
  rcases m.story with ⟨es, hes, plain, hdrawn⟩ | ⟨entry, request, enrolls, rfl⟩
  · have same : ∀ t, (account t s'.journal).fate.request? = (account t s.journal).fate.request? := by
      intro t
      rw [hes, request?_append plain]
    refine ⟨fun h => ?_, fun h h' => ?_⟩
    · obtain ⟨k, hk, hk', number⟩ := numbered.issued ((same _).symm.trans h)
      exact ⟨k, hk, hk'.trans hdrawn, number⟩
    · exact numbered.distinct ((same _).symm.trans h) ((same _).symm.trans h')
  · have fate : (account entry.ticket s.journal).fate = .unregistered := coherent.1
    have drawn : (s.draw.enroll entry request).issuer.drawn = s.issuer.drawn + 1 := rfl
    have others : ∀ t, t ≠ entry.ticket →
        account t (s.draw.enroll entry request).journal = account t s.journal := fun t ht =>
      account_cons_of_not (e := .registered entry.ticket request) (by simpa [Entry.concerns] using Ne.symm ht)
    have own : (account entry.ticket (s.draw.enroll entry request).journal).fate = .awaiting request := by
      change (account entry.ticket (.registered entry.ticket request :: s.journal)).fate = _
      rw [account_cons_of_concerns (beq_self_eq_true _)]
      change Fate.register request (account entry.ticket s.journal).fate = _
      rw [fate]
      rfl
    rw [drawn] at few
    -- All numbers drawn before are smaller, and below the bound none comes up again.
    have new : ∀ {t r}, t ≠ entry.ticket →
        (account t (s.draw.enroll entry request).journal).fate.request? = some r →
        r.session ≠ request.session := by
      intro t r ht h heq
      rw [others t ht] at h
      obtain ⟨k, hk, hk', number⟩ := numbered.issued h
      have := ofNat_inj hk (by omega) (Nat.succ_pos _) few (number.symm.trans (heq.trans enrolls.number))
      omega
    refine ⟨fun {t r} h => ?_, fun {t u r r'} h h' heq => ?_⟩
    · by_cases ht : t = entry.ticket
      · rw [ht, own] at h
        cases h
        exact ⟨s.issuer.drawn + 1, Nat.succ_pos _, Nat.le_refl _, enrolls.number⟩
      · rw [others t ht] at h
        obtain ⟨k, hk, hk', number⟩ := numbered.issued h
        exact ⟨k, hk, Nat.le_succ_of_le hk', number⟩
    · by_cases ht : t = entry.ticket
      · by_cases hu : u = entry.ticket
        · exact ht.trans hu.symm
        · rw [ht, own] at h
          cases h
          exact absurd heq.symm (new hu h')
      · by_cases hu : u = entry.ticket
        · rw [hu, own] at h'
          cases h'
          exact absurd heq (new ht h)
        · rw [others t ht] at h
          rw [others u hu] at h'
          exact numbered.distinct h h' heq

theorem Moves.numbered (m : Moves setup s H s' K) (inv : Inv setup s H) (numbered : Numbered s)
    (few : s'.issuer.drawn ≤ numbers) : Numbered s' := by
  induction m with
  | refl => exact numbered
  | tail F before last ih =>
    exact last.numbered (last.inv (before.inv inv)).coherent few (ih (last.drawn.trans few))

/-! ### Whose session a call finds -/

/-- What is found under the number of a call's request belongs to the call. -/
theorem Numbered.own (numbered : Numbered s) (inv : Inv setup s H) {r : Packet} {entry : Session}
    (request : (s.standing t).account.fate.request? = some r) (found : s.table.find r.session = some entry) :
    entry.ticket = t := by
  obtain ⟨r', fate, number, -⟩ := inv.found found
  refine numbered.distinct ?_ request number
  change (s.standing entry.ticket).account.fate.request? = some r'
  rw [fate]
  rfl

/-- The next number is free, unless all are used up. -/
theorem Numbered.next_free (numbered : Numbered s) (inv : Inv setup s H) (few : s.issuer.drawn < numbers) :
    s.table.find (UInt64.ofNat (s.issuer.drawn + 1)) = none := by
  cases found : s.table.find (UInt64.ofNat (s.issuer.drawn + 1)) with
  | none => rfl
  | some entry =>
    obtain ⟨r, fate, number, -⟩ := inv.found found
    have request : (account entry.ticket s.journal).fate.request? = some r := congrArg Fate.request? fate
    obtain ⟨k, hk, hk', heq⟩ := numbered.issued request
    have := ofNat_inj hk (by omega) (Nat.succ_pos _) few (heq.symm.trans number)
    omega

/-- A call for whose reply someone waits finds no callbacks. -/
theorem Numbered.finds_waiting (numbered : Numbered s) (inv : Inv setup s H) {r : Packet} {made : Made}
    {entry : Session} (request : (s.standing t).account.fate.request? = some r)
    (hmade : (s.standing t).account.made = some made) (waits : made.Waits)
    (found : s.table.find r.session = some entry) : ∃ listening, entry = .waiting t listening := by
  have own := numbered.own inv request found
  obtain ⟨r', -, -, -, -, backs⟩ := inv.found found
  cases entry with
  | waiting ticket listening =>
    obtain rfl : ticket = t := own
    exact ⟨listening, rfl⟩
  | callback pending =>
    obtain rfl : pending.ticket = t := own
    -- Callbacks wait in the table only for calls without a time limit.
    obtain ⟨-, m, hmade', patient⟩ := backs
    cases hmade.symm.trans hmade'
    simp [Made.Waits, patient] at waits

/-- An asynchronous call without a time limit finds its callbacks. -/
theorem Numbered.finds_callback (numbered : Numbered s) (inv : Inv setup s H) {r : Packet} {m : Outbound}
    {callbacks : List Program} {entry : Session} (request : (s.standing t).account.fate.request? = some r)
    (hmade : (s.standing t).account.made = some (.async m callbacks)) (patient : m.timeout = none)
    (found : s.table.find r.session = some entry) :
    ∃ pending : Pending, entry = .callback pending ∧ pending.ticket = t := by
  have own := numbered.own inv request found
  obtain ⟨r', -, -, -, -, backs⟩ := inv.found found
  cases entry with
  | waiting ticket listening =>
    obtain rfl : ticket = t := own
    obtain ⟨made, hmade', waits, -⟩ := backs
    cases hmade.symm.trans hmade'
    simp [Made.Waits, patient] at waits
  | callback pending => exact ⟨pending, rfl, own⟩

end Engine
end Switchboard
