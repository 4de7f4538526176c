import Switchboard.Proofs.Engine.Removals

/-! What is over stays over. A connection that was closed registers nothing any more; a call that has ended
    or could not be sent has no session; and a session that was taken out without a response or a time
    limit belongs to a call that was given up or could not be sent. -/

namespace Switchboard

/-- What an account says of a call is in order: the session does not outlive the call, and it is not taken
    out for nothing. -/
structure Account.Tidy (ticket : Nat) (a : Account) : Prop where
  settled : a.failed.isSome ∨ a.ends ≠ [] → ∀ r, a.fate ≠ .awaiting r
  reason : ∀ r, a.fate = .removed r → a.failed.isSome ∨ .cancelled ticket ∈ a.ends

/-- An entry neither registers nor removes a session, nor says that a call is over. -/
def Entry.Mild : Entry → Prop
  | .registered _ _ | .unsent _ _ | .removed _ | .cancelled _ | .finished _ _ | .delivered _ _ => False
  | _ => True

section

variable {a : Account} {e : Entry} {J K : List Entry} {t u : Nat}

theorem Account.Tidy.told_mild (tidy : a.Tidy t) (mild : e.Mild) : (a.told e).Tidy t := by
  cases e with
  | registered _ _ | unsent _ _ | removed _ | cancelled _ | finished _ _ | delivered _ _ => exact mild.elim
  | matched u p =>
    refine ⟨fun h r fate => ?_, fun r fate => tidy.reason r ?_⟩ <;>
      cases before : a.fate <;> simp_all [told, Fate.settle]
  | expired u now =>
    refine ⟨fun h r fate => ?_, fun r fate => tidy.reason r ?_⟩ <;>
      cases before : a.fate <;> simp_all [told, Fate.settle]
  | closed =>
    refine ⟨fun h r fate => ?_, fun r fate => tidy.reason r ?_⟩ <;>
      cases before : a.fate <;> simp_all [told, Fate.settle]
  | _ => exact ⟨tidy.settled, tidy.reason⟩

theorem tidy_cons (tidy : (account t J).Tidy t) (mild : e.Mild) : (account t (e :: J)).Tidy t := by
  cases concerns : e.concerns t with
  | true =>
    rw [account_cons_of_concerns concerns]
    exact tidy.told_mild mild
  | false =>
    rw [account_cons_of_not concerns]
    exact tidy

theorem failed_append (h : (account t J).failed.isSome) : (account t (K ++ J)).failed.isSome := by
  obtain ⟨fault, said⟩ := Option.isSome_iff_exists.mp h
  exact failed_of_mem (List.mem_append_right K (mem_of_failed said))

/-- A session that ended before anything more was said is as tidy as it was. -/
theorem tidy_append (tidy : (account t J).Tidy t) (settled : ∀ r, (account t J).fate ≠ .awaiting r)
    (there : (account t J).fate ≠ .unregistered) : (account t (K ++ J)).Tidy t := by
  have same : (account t (K ++ J)).fate = (account t J).fate := fate_append settled there
  refine ⟨fun _ r => same ▸ settled r, fun r fate => ?_⟩
  rcases tidy.reason r (same ▸ fate) with failed | given
  · exact .inl (failed_append failed)
  · exact .inr (cancelled_mem_ends.mpr (List.mem_append_right K (cancelled_mem_ends.mp given)))

/-- Entries are about one ticket. -/
def About (u : Nat) (es : List Entry) : Prop := ∀ e ∈ es, ∀ t, t ≠ u → e.concerns t = false

theorem About.single (h : ∀ t, t ≠ u → e.concerns t = false) : About u [e] :=
  fun _ he => List.mem_singleton.mp he ▸ h

theorem About.append (later : About u K) (earlier : About u J) : About u (K ++ J) := fun e he =>
  (List.mem_append.mp he).elim (later e) (earlier e)

/-- After entries about one ticket all are tidy if that one is. -/
theorem About.tidy (about : About u K) (tidy : ∀ t, (account t J).Tidy t) (own : (account u (K ++ J)).Tidy u) :
    ∀ t, (account t (K ++ J)).Tidy t := by
  intro t
  by_cases h : t = u
  · exact h ▸ own
  · rw [account_append fun e he => about e he t h]
    exact tidy t

theorem About.tidy_over (about : About u K) (tidy : ∀ t, (account t J).Tidy t)
    (settled : ∀ r, (account u J).fate ≠ .awaiting r) (there : (account u J).fate ≠ .unregistered) :
    ∀ t, (account t (K ++ J)).Tidy t := about.tidy tidy (tidy_append (tidy u) settled there)

/-- A call that has no session is tidy. -/
theorem tidy_of_unregistered (fate : a.fate = .unregistered) : a.Tidy t :=
  ⟨by simp [fate], by simp [fate]⟩

end

namespace Engine

variable {setup : Setup} {s s' : Engine} {H K F taken given : Hands} {n : UInt64} {t u : Nat} {k : List Entry}

/-- A request whose number is not in the table does not await a reply. -/
theorem Inv.not_awaiting (inv : Inv setup s H) {r : Packet}
    (request : (account t s.journal).fate.request? = some r)
    (missing : ∀ e ∈ s.table.entries, e.1 ≠ r.session) (r' : Packet) :
    (account t s.journal).fate ≠ .awaiting r' := by
  intro fate
  obtain ⟨entry, mem, -⟩ := inv.entry_of_awaiting fate
  rw [fate] at request
  cases request
  exact missing _ mem rfl

/-- A call that takes a session out of the table takes its own. -/
theorem strike_own (inv : Inv setup s H) (numbered : Numbered s) {r : Packet} {a : Engine}
    (request : (s.standing u).account.fate.request? = some r) (table : a.table = s.table) :
    ∃ more, (a.strike r.session).journal = more ++ a.journal ∧ About u more := by
  cases found : a.table.find r.session with
  | none => exact ⟨[], by rw [strike_of_find found]; rfl, fun _ he => absurd he List.not_mem_nil⟩
  | some entry =>
    have own : entry.ticket = u := numbered.own inv request (table ▸ found)
    refine ⟨[.removed entry.ticket], by rw [strike_of_some found]; rfl, .single fun t ht => ?_⟩
    simpa [Entry.concerns, own] using Ne.symm ht

/-- A call that could not be sent or was given up is tidy once its session is out of the table. -/
theorem tidy_strike (inv : Inv setup s H) (numbered : Numbered s) (tidy : ∀ t, (account t s.journal).Tidy t)
    (inv' : Inv setup s' K) {r : Packet} {a : Engine} (request : (s.standing u).account.fate.request? = some r)
    (table : a.table = s.table) (told : a.journal = k ++ s.journal) (about : About u k)
    (journal : s'.journal = (a.strike r.session).journal)
    (entries : s'.table.entries = (a.strike r.session).table.entries)
    (excused : ∃ e ∈ k, (∃ fault, e = .unsent u fault) ∨ e = .cancelled u) :
    ∀ t, (account t s'.journal).Tidy t := by
  obtain ⟨more, struck, own⟩ := strike_own inv numbered request table
  have journal : s'.journal = (more ++ k) ++ s.journal := by rw [journal, struck, told, List.append_assoc]
  have kept : (account u s'.journal).fate.request? = some r := by
    rw [journal]
    exact (extends_account (more ++ k) s.journal).request request
  have missing : ∀ e ∈ s'.table.entries, e.1 ≠ r.session := by
    rw [entries]
    intro e he
    obtain ⟨-, other⟩ := List.mem_filter.mp he
    exact bne_iff_ne.mp other
  -- What the call told before its session was taken out is the reason.
  obtain ⟨e, mem, reason⟩ := excused
  have mem : e ∈ s'.journal := journal ▸ List.mem_append_left _ (List.mem_append_right more mem)
  have tidied : (account u s'.journal).Tidy u := by
    refine ⟨fun _ => inv'.not_awaiting kept missing, fun _ _ => ?_⟩
    rcases reason with ⟨fault, rfl⟩ | rfl
    · exact .inl (failed_of_mem mem)
    · exact .inr (cancelled_mem_ends.mpr mem)
  rw [journal] at tidied ⊢
  exact (own.append about).tidy tidy tidied

theorem Move.tidy (m : Move setup s taken s' given) (inv : Inv setup s (taken + F)) (numbered : Numbered s)
    (tidy : ∀ t, (account t s.journal).Tidy t) : ∀ t, (account t s'.journal).Tidy t := by
  have inv' : Inv setup s' (given + F) := m.inv inv
  have known : ∀ {k : Token}, k ∈ taken → k.Fits (s.standing k.ticket) := fun hk =>
    inv.fits_of_mem (Multiset.mem_add.mpr (.inl hk))
  have enrolled : ∀ {u : Nat} {request : Packet}, (account u s.journal).failed = none →
      (account u s.journal).ends = [] → ∀ t, (account t (.registered u request :: s.journal)).Tidy t := by
    intro u request failed ends
    refine About.tidy (K := [_]) (u := u) (.single fun t ht => beq_false_of_ne (Ne.symm ht)) tidy ?_
    have told : account u ([Entry.registered u request] ++ s.journal) =
        { account u s.journal with fate := (account u s.journal).fate.register request } :=
      account_cons_of_concerns (beq_self_eq_true _)
    rw [told]
    refine ⟨fun h => ?_, fun r fate => (tidy u).reason r ?_⟩
    · simp [failed, ends] at h
    · cases before : (account u s.journal).fate <;> simp_all [Fate.register]
  cases m with
  | take | put | draw | contexts | load | writes | takeCall | keepCall | takeWait | keepWait | collect |
    bereave | refuse | accept | watch | forsake => exact tidy
  | note plain =>
    rename_i e
    exact fun t => tidy_cons (tidy t) (by cases e <;> trivial)
  | call | ask | matchWaiting | matchNobody | pass | close | beginCall | beginWait | answer =>
    exact fun t => tidy_cons (tidy t) trivial
  -- A request is registered while nothing says that its call is over.
  | @enrollCall c request phase encodes enrolls =>
    obtain ⟨-, failed, -⟩ := known (k := .calling c) (by simp)
    exact enrolled failed (inv.live (k := .calling c) (mem_estate (by simp)) (beq_self_eq_true _)).1
  | @enrollCallbacks m pending patient enrolls | @enrollWait m pending timed enrolls =>
    obtain ⟨-, failed, -⟩ := known (k := .asked pending.ticket m pending.callbacks) (by simp)
    exact enrolled failed
      (inv.live (k := .asked pending.ticket m pending.callbacks) (mem_estate (by simp)) (beq_self_eq_true _)).1
  -- A call that was never registered ends.
  | @refuseCall c fault phase reason =>
    have fate := (known (k := .calling c) (by simp)).unregistered phase
    refine About.tidy (K := [_]) (u := c.ticket) (.single fun t ht => beq_false_of_ne (Ne.symm ht)) tidy
      (tidy_of_unregistered ?_)
    exact (congrArg Account.fate (account_cons_of_concerns (beq_self_eq_true _))).trans fate
  | @cancelEarly c phase =>
    have fate := (known (k := .calling c) (by simp)).unregistered phase
    refine About.tidy (K := [_]) (u := c.ticket) (.single fun t ht => beq_false_of_ne (Ne.symm ht)) tidy
      (tidy_of_unregistered ?_)
    exact (congrArg Account.fate (account_cons_of_concerns (beq_self_eq_true _))).trans fate
  -- A call takes its session with it.
  | failCall c session fault =>
    obtain ⟨-, -, -, -, r, rfl, listens⟩ := known (k := .sending c session) (by simp)
    exact tidy_strike inv numbered tidy inv' listens.request?
      (a := (s.note (.unsent c.ticket fault)).note (.finished c.ticket (.error fault)))
      (k := [.finished c.ticket (.error fault), .unsent c.ticket fault]) rfl rfl
      (by simpa [About, Entry.concerns, Token.ticket] using fun t ht => Ne.symm ht) rfl rfl
      ⟨.unsent c.ticket fault, by simp, .inl ⟨fault, rfl⟩⟩
  | @cancel c session deadline phase =>
    obtain ⟨r, rfl, listens⟩ := (known (k := .calling c) (by simp)).listens phase
    exact tidy_strike inv numbered tidy inv' listens.request? (a := s.note (.cancelled c.ticket))
      (k := [.cancelled c.ticket]) rfl rfl
      (by simpa [About, Entry.concerns, Token.ticket] using fun t ht => Ne.symm ht) rfl rfl
      ⟨.cancelled c.ticket, by simp, .inr rfl⟩
  | @fail m pending entry fault found =>
    obtain ⟨-, -, request⟩ := known (k := .placed m pending) (by simp)
    exact tidy_strike inv numbered tidy inv' request (a := s.note (.unsent pending.ticket fault))
      (k := [.unsent pending.ticket fault]) rfl rfl
      (by simpa [About, Entry.concerns, Token.ticket] using fun t ht => Ne.symm ht) rfl rfl
      ⟨.unsent pending.ticket fault, by simp, .inl ⟨fault, rfl⟩⟩
  | failWait m pending fault =>
    obtain ⟨-, -, -, -, listens⟩ := known (k := .promised m pending) (by simp)
    exact tidy_strike inv numbered tidy inv' listens.request? (a := s.note (.unsent pending.ticket fault))
      (k := [.unsent pending.ticket fault]) rfl rfl
      (by simpa [About, Entry.concerns, Token.ticket] using fun t ht => Ne.symm ht) rfl rfl
      ⟨.unsent pending.ticket fault, by simp, .inl ⟨fault, rfl⟩⟩
  -- A call is over whose session had ended.
  | @matchCallbacks p pending response found =>
    obtain ⟨r, fate, -⟩ := inv.found found
    have matched : ∀ t, (account t (.matched pending.ticket p :: s.journal)).Tidy t := fun t =>
      tidy_cons (tidy t) trivial
    have replied : (account pending.ticket (.matched pending.ticket p :: s.journal)).fate = .replied r p :=
      congrArg Account.fate (Inv.told_matched (t := pending.ticket) fate)
    exact About.tidy_over (K := [_]) (.single fun t ht => beq_false_of_ne (Ne.symm ht)) matched
      (by simp [replied]) (by simp [replied])
  | settle pending =>
    obtain ⟨-, fate⟩ := known (k := .owed pending) (by simp)
    have fate : (account pending.ticket s.journal).fate = .closed pending.request.toPacket := fate
    exact About.tidy_over (K := [_]) (.single fun t ht => beq_false_of_ne (Ne.symm ht)) tidy
      (by simp [fate]) (by simp [fate])
  | @failLate m pending fault missing =>
    obtain ⟨-, -, request⟩ := known (k := .placed m pending) (by simp)
    have request : (account pending.ticket s.journal).fate.request? = some pending.request.toPacket := request
    refine About.tidy_over (K := [_]) (.single fun t ht => beq_false_of_ne (Ne.symm ht)) tidy
      (inv.not_awaiting request (SessionTable.find_eq_none_iff.mp missing)) fun fate => ?_
    rw [fate] at request
    cases request
  | finish c session result =>
    obtain ⟨-, -, -, -, -, decides, r, request, rfl⟩ := known (k := .ending c session result) (by simp)
    have decides : (account c.ticket s.journal).fate.Decides c.message result := decides
    obtain ⟨more, struck, own⟩ := strike_own (u := c.ticket) inv numbered request
      (a := s.note (.finished c.ticket result)) rfl
    have journal : ((s.note (.finished c.ticket result)).strike r.session).journal =
        (more ++ [.finished c.ticket result]) ++ s.journal := by rw [struck, List.append_assoc]; rfl
    change ∀ t, (account t ((s.note _).strike _).journal).Tidy t
    rw [journal]
    have said : About c.ticket [Entry.finished c.ticket result] := .single fun t ht => beq_false_of_ne (Ne.symm ht)
    refine (own.append said).tidy_over tidy (fun r fate => ?_) fun fate => ?_ <;>
      · rw [fate] at decides
        exact decides
  | @expire c session deadline now limit phase held late =>
    obtain ⟨r, rfl, listens⟩ := (known (k := .calling c) (by simp)).listens phase
    obtain ⟨fate, -⟩ := inv.find_of_listens listens held
    have expired : (account c.ticket (.expired c.ticket now :: s.journal)).fate = .expired r now := by
      rw [account_cons_of_concerns (beq_self_eq_true _)]
      exact congrArg Account.fate (Account.told_expired fate)
    obtain ⟨result, hresult⟩ : ∃ result : Except Fault Bytes, result = .error (.callTimedOut c.message.route limit) :=
      ⟨_, rfl⟩
    obtain ⟨more, struck, own⟩ := strike_own (u := c.ticket) inv numbered listens.request?
      (a := (s.note (.expired c.ticket now)).note (.finished c.ticket result)) rfl
    have journal : (((s.note (.expired c.ticket now)).note (.finished c.ticket result)).strike r.session).journal =
        (more ++ [.finished c.ticket result]) ++ .expired c.ticket now :: s.journal := by
      rw [struck, List.append_assoc]
      rfl
    rw [← hresult]
    change ∀ t, (account t (((s.note _).note _).strike _).journal).Tidy t
    rw [journal]
    have said : About c.ticket [Entry.finished c.ticket result] := .single fun t ht => beq_false_of_ne (Ne.symm ht)
    exact (own.append said).tidy_over (fun t => tidy_cons (tidy t) trivial) (by simp [expired]) (by simp [expired])
  | @collectWait w p found =>
    obtain ⟨-, -, -, listens⟩ := known (k := .watching w) (by simp)
    obtain ⟨fate, -⟩ := listens.handed_of_mail (lookup_eq_head?_mailOf.symm.trans found)
    have fate : (account w.pending.ticket s.journal).fate = .replied w.pending.request.toPacket p.toPacket := fate
    exact About.tidy_over (K := [_]) (J := s.journal) (.single fun t ht => beq_false_of_ne (Ne.symm ht)) tidy
      (by simp [fate]) (by simp [fate])
  | @bereaveWait w missing gone =>
    obtain ⟨-, -, -, listens⟩ := known (k := .watching w) (by simp)
    have fate : (account w.pending.ticket s.journal).fate = .closed w.pending.request.toPacket ∨
      (account w.pending.ticket s.journal).fate = .removed w.pending.request.toPacket :=
      listens.bereft (mail_eq_nil missing) (sessions_eq_nil gone)
    refine About.tidy_over (K := [_]) (.single fun t ht => beq_false_of_ne (Ne.symm ht)) tidy ?_ ?_ <;>
      rcases fate with fate | fate <;> simp [fate]
  | @expireWait w now deadline held begun late =>
    obtain ⟨-, -, -, listens⟩ := known (k := .watching w) (by simp)
    obtain ⟨fate, -⟩ := inv.find_of_listens listens held
    have expired : (account w.pending.ticket (.expired w.pending.ticket now :: s.journal)).fate =
        .expired w.pending.request.toPacket now := by
      rw [account_cons_of_concerns (beq_self_eq_true _)]
      exact congrArg Account.fate (Account.told_expired fate)
    obtain ⟨reply, hreply⟩ : ∃ p, p = w.pending.request.toPacket.faultReply (.waitTimedOut w.limit) := ⟨_, rfl⟩
    obtain ⟨more, struck, own⟩ := strike_own (u := w.pending.ticket) inv numbered listens.request?
      (a := s.note (.expired w.pending.ticket now)) rfl
    rw [← hreply]
    change ∀ t, (account t (.delivered w.pending reply :: ((s.note _).strike _).journal)).Tidy t
    rw [struck]
    have said : About w.pending.ticket [Entry.delivered w.pending reply] :=
      .single fun t ht => beq_false_of_ne (Ne.symm ht)
    exact (said.append own).tidy_over (J := .expired w.pending.ticket now :: s.journal)
      (fun t => tidy_cons (tidy t) trivial) (by simp [expired]) (by simp [expired])

theorem Moves.tidy (m : Moves setup s H s' K) (inv : Inv setup s H) (numbered : Numbered s)
    (few : s'.issuer.drawn ≤ numbers) (tidy : ∀ t, (account t s.journal).Tidy t) :
    ∀ t, (account t s'.journal).Tidy t := by
  induction m with
  | refl => exact tidy
  | tail F before last ih =>
    have few := last.drawn.trans few
    exact last.tidy (before.inv inv) (before.numbered inv numbered few) (ih few)

/-! ### Closed connections -/

/-- No move opens a connection that is closed, and closing is told of in the journal. -/
theorem Move.closing (m : Move setup s taken s' given) :
    (s.table.closed = true → s'.table.closed = true) ∧
    ∃ es, s'.journal = es ++ s.journal ∧ (.closed ∈ es → s'.table.closed = true) := by
  -- Taking a session out tells of nothing but that, and does not open the table again.
  have struck : ∀ (a : Engine) (n : UInt64), a.table = s.table → (∃ k, a.journal = k ++ s.journal ∧ .closed ∉ k) →
      (s.table.closed = true → (a.strike n).table.closed = true) ∧
      ∃ es, (a.strike n).journal = es ++ s.journal ∧ .closed ∉ es := by
    rintro a n table ⟨k, hk, quiet⟩
    obtain ⟨es, hes, removed⟩ := strike_journal (s := a) (n := n)
    refine ⟨fun h => ?_, es ++ k, by rw [hes, hk, List.append_assoc], fun h => ?_⟩
    · change a.table.closed = true
      rw [table]
      exact h
    · rcases List.mem_append.mp h with h | h
      · obtain ⟨t, ht⟩ := removed _ h
        cases ht
      · exact quiet h
  cases m with
  | take | put | draw | contexts | load | writes | takeCall | keepCall | takeWait | keepWait | collect | bereave |
    refuse | accept | watch | forsake => exact ⟨id, [], rfl, by simp⟩
  | note plain =>
    rename_i e
    exact ⟨id, [e], rfl, by cases e <;> first | exact plain.elim | simp⟩
  | close => exact ⟨fun _ => rfl, [_], rfl, fun _ => rfl⟩
  | call | ask | enrollCall | enrollCallbacks | enrollWait | matchWaiting | matchNobody | pass | settle | refuseCall |
    beginCall | cancelEarly | beginWait | collectWait | bereaveWait | failLate | answer =>
    exact ⟨id, [_], rfl, by simp⟩
  | matchCallbacks => exact ⟨id, [_, _], rfl, by simp⟩
  | finish c session result =>
    obtain ⟨closed, es, hes, quiet⟩ := struck (s.note (.finished c.ticket result)) session rfl ⟨[_], rfl, by simp⟩
    exact ⟨closed, es, hes, fun h => absurd h quiet⟩
  | failCall c session fault =>
    obtain ⟨closed, es, hes, quiet⟩ := struck
      ((s.note (.unsent c.ticket fault)).note (.finished c.ticket (.error fault))) session rfl ⟨[_, _], rfl, by simp⟩
    exact ⟨closed, es, hes, fun h => absurd h quiet⟩
  | @expire c session deadline now limit phase held late =>
    obtain ⟨closed, es, hes, quiet⟩ := struck ((s.note (.expired c.ticket now)).note
      (.finished c.ticket (.error (.callTimedOut c.message.route limit)))) session rfl ⟨[_, _], rfl, by simp⟩
    exact ⟨closed, es, hes, fun h => absurd h quiet⟩
  | @cancel c session deadline phase =>
    obtain ⟨closed, es, hes, quiet⟩ := struck (s.note (.cancelled c.ticket)) session rfl ⟨[_], rfl, by simp⟩
    exact ⟨closed, es, hes, fun h => absurd h quiet⟩
  | @expireWait w now deadline held begun late =>
    obtain ⟨closed, es, hes, quiet⟩ := struck (s.note (.expired w.pending.ticket now)) w.pending.request.session rfl
      ⟨[_], rfl, by simp⟩
    exact ⟨closed, _ :: es, congrArg (_ :: ·) hes, fun h => absurd h (by simp [quiet])⟩
  | @fail m pending entry fault found =>
    obtain ⟨closed, es, hes, quiet⟩ := struck (s.note (.unsent pending.ticket fault)) pending.request.session rfl
      ⟨[_], rfl, by simp⟩
    exact ⟨closed, es, hes, fun h => absurd h quiet⟩
  | failWait m pending fault =>
    obtain ⟨closed, es, hes, quiet⟩ := struck (s.note (.unsent pending.ticket fault)) pending.request.session rfl
      ⟨[_], rfl, by simp⟩
    exact ⟨closed, es, hes, fun h => absurd h quiet⟩

/-- After the closing of a connection it is closed, and nothing was registered since. -/
structure Sealed (s : Engine) : Prop where
  shut : Entry.closed ∈ s.journal → s.table.closed = true
  hushed : ∀ {later earlier}, s.journal = later ++ .closed :: earlier → ∀ e ∈ later, e.registers = false

theorem Move.sealed (m : Move setup s taken s' given) (h : s.Sealed) : s'.Sealed := by
  obtain ⟨stays, es, hes, closing⟩ := m.closing
  refine ⟨fun told => ?_, fun {later earlier} heq => ?_⟩
  · rw [hes] at told
    exact (List.mem_append.mp told).elim closing fun told => stays (h.shut told)
  · rcases m.story with ⟨k, hk, plain, -⟩ | ⟨entry, request, enrolls, rfl⟩
    · rcases List.append_eq_append_iff.mp (hk.symm.trans heq) with ⟨since, rfl, before⟩ | ⟨since, rfl, -⟩
      · exact fun e he => (List.mem_append.mp he).elim (plain e) (h.hushed before e)
      · exact fun e he => plain e (List.mem_append_left since he)
    · -- What is registered is registered before the closing.
      have told : Entry.closed ∈ (s.draw.enroll entry request).journal :=
        heq ▸ List.mem_append_right later List.mem_cons_self
      rcases List.mem_cons.mp told with same | told
      · cases same
      · cases enrolls.isOpen.symm.trans (h.shut told)

theorem Moves.sealed (m : Moves setup s H s' K) (h : s.Sealed) : s'.Sealed := by
  induction m with
  | refl => exact h
  | tail F before last ih => exact last.sealed ih

end Engine
end Switchboard
