import Switchboard.Proofs.Correlation

/-! What a call comes back with. The first thing that can decide it does, and nothing that happens later:
    its request cannot be encoded, the connection is closed already, the request cannot be written, or else
    whichever comes first of its reply, the closing of the connection and the end of its time. -/

namespace Switchboard

/-- Why a call comes back with a result, as a journal tells it. -/
inductive Conclusion (J : List Entry) (ticket : Nat) (m : Outbound) : Except Fault Bytes → Prop where
  | unencodable {fault : Fault} (body : m.body = .error fault) (unregistered : ∀ r, .registered ticket r ∉ J) :
    Conclusion J ticket m (.error fault)
  | refused (encodes : m.Encodes) (closed : .closed ∈ J) (unregistered : ∀ r, .registered ticket r ∉ J) :
    Conclusion J ticket m (.error (.notSent m.route))
  | unsent {fault : Fault} {request : Packet} (encodes : m.Encodes) (registered : .registered ticket request ∈ J)
      (unsent : .unsent ticket fault ∈ J) : Conclusion J ticket m (.error fault)
  | replied {request p : Packet} (encodes : m.Encodes) (written : ∀ fault, .unsent ticket fault ∉ J)
      (first : EndedBy J ticket request (.matched ticket p)) (response : p.command = .response)
      (number : p.session = request.session) : Conclusion J ticket m p.carried
  | closed {request : Packet} (encodes : m.Encodes) (written : ∀ fault, .unsent ticket fault ∉ J)
      (first : EndedBy J ticket request .closed) : Conclusion J ticket m (.error (.notAnswered m.route))
  | expired {request : Packet} {limit : Duration} {began now : Nat} (encodes : m.Encodes)
      (written : ∀ fault, .unsent ticket fault ∉ J) (first : EndedBy J ticket request (.expired ticket now))
      (timed : m.timeout = some limit) (waited : .began ticket began ∈ J)
      (late : began + limit.nanoseconds ≤ now) :
    Conclusion J ticket m (.error (.callTimedOut m.route limit))

section

variable {setup : Setup} {J : List Entry} {t : Nat}

theorem Coherent.conclusion (coherent : Coherent setup J) (justified : Justified J) {m : Outbound}
    {result : Except Fault Bytes} (ended : (account t J).ends = []) (made : (account t J).made = some (.call m))
    (concludes : Concludes J t m result) : Conclusion J t m result := by
  have told := told_fate J t
  have written : (account t J).failed = none → ∀ fault, .unsent t fault ∉ J := by
    intro failed fault h
    have := failed_of_mem h
    rw [failed] at this
    cases this
  cases concludes with
  | unencodable fault body fate eq =>
    rw [fate] at told
    rw [eq]
    exact .unencodable body told
  | refused encodes closed fate eq =>
    rw [fate] at told
    rw [eq]
    exact .refused encodes closed told
  | unsent fault encodes failed registered eq =>
    obtain ⟨request, hrequest⟩ := Option.isSome_iff_exists.mp registered
    rw [eq]
    exact .unsent encodes (mem_of_request hrequest) (mem_of_failed failed)
  | expired encodes failed request now limit fate timed eq =>
    rw [fate] at told
    rw [eq]
    obtain ⟨later, since, earlier, heq, -⟩ := id told
    have admissible : Admissible setup (since ++ .registered t request :: earlier) (.expired t now) := by
      rw [heq] at coherent
      exact coherent.admissible
    obtain ⟨-, made', limit', began, hmade, timed', hbegan, late⟩ := admissible
    have extends' : (account t (since ++ .registered t request :: earlier)).Extends (account t J) := by
      rw [heq, show later ++ Entry.expired t now :: (since ++ .registered t request :: earlier) =
        (later ++ [.expired t now]) ++ (since ++ .registered t request :: earlier) by simp]
      exact extends_account _ _
    obtain rfl : made' = .call m := Option.some.inj ((extends'.made hmade).symm.trans made)
    obtain rfl : limit' = limit := Option.some.inj (timed'.symm.trans timed)
    refine .expired encodes (written failed) told timed ?_ late
    rw [heq]
    exact List.mem_append_right _ (List.mem_cons_of_mem _ (mem_of_began hbegan))
  | decided encodes failed began decides =>
    cases fate : (account t J).fate with
    | unregistered | awaiting r | expired r now =>
      rw [fate] at decides
      exact decides.elim
    | replied r p =>
      rw [fate] at decides told
      obtain rfl := decides
      have first := coherent.firstReply fate
      exact .replied encodes (written failed) told first.response first.number
    | closed r =>
      rw [fate] at decides told
      obtain rfl := decides
      exact .closed encodes (written failed) told
    -- A session that was taken out first is that of a call that had ended or was not written, and this one is neither.
    | removed r =>
      rcases justified.reason coherent fate with ⟨fault, unsent⟩ | ⟨e, he, finals⟩
      · exact absurd unsent (written failed fault)
      · rw [ends_eq_filter, List.filter_eq_nil_iff] at ended
        exact absurd finals (ended e he)

end

namespace Engine

variable {setup : Setup} {shared : Bool} {s u : Engine} {inner : Inner} {t : Nat} {c : Call} {H : Hands}

/-! ### After a call -/

/-- Nothing is left of a call: it has no session, and responses under its number go back to the pool and
    change nothing else. -/
structure Over (setup : Setup) (s : Engine) (t : Nat) : Prop where
  gone : ∀ e ∈ s.table.entries, e.2.ticket ≠ t
  late : ∀ {inner r p}, .registered t r ∈ s.journal → p.session = r.session → acceptReply setup inner p s =
    .ok ((), { s with issuer := s.issuer.put p, journal := .unmatched p.toPacket :: s.journal })

theorem Reachable.over (run : Reachable setup shared s) (few : s.issuer.drawn ≤ numbers)
    {result : Except Fault Bytes} (finished : .finished t result ∈ s.journal) : Over setup s t := by
  have inv := run.inv
  have gone : ∀ e ∈ s.table.entries, e.2.ticket ≠ t := by
    rintro ⟨n, entry⟩ mem rfl
    obtain ⟨later, earlier, heq⟩ := List.append_of_mem finished
    have coherent := inv.coherent
    rw [heq] at coherent
    obtain ⟨-, m, made, -⟩ := coherent.admissible
    have made : (s.standing entry.ticket).account.made = some (.call m) :=
      inv.coherent.made_of_mem (heq ▸ List.mem_append_right _ (List.mem_cons_of_mem _ (mem_of_made made)))
    have ended : 1 ≤ (s.standing entry.ticket).account.ends.length := by
      change 1 ≤ (account entry.ticket s.journal).ends.length
      rw [ends_eq_filter, ← List.countP_eq_length_filter, Nat.succ_le_iff, List.countP_pos_iff]
      exact ⟨_, finished, by simp [Entry.finals, Entry.completes]⟩
    have tally := inv.tally entry.ticket
    have known := inv.known_of_made made
    rw [if_pos known] at tally
    obtain ⟨r, -, -, sessions, -, backs⟩ := inv.found (inv.keyed.find_of_mem mem)
    unfold Standing.stakes at tally
    -- Callbacks or someone listening would be a second stake in a call that ended, and nobody is deaf to a call.
    cases entry with
    | callback pending =>
      rw [sessions] at tally
      simp [pledges, Session.pending?] at tally
      omega
    | waiting ticket listening =>
      cases listening with
      | true =>
        have := run.attended.sessions mem
        change 1 ≤ (account ticket s.journal).ends.length at ended
        change (s.estate 0).holders ticket + (_ + (account ticket s.journal).ends.length) ≤ 1 at tally
        omega
      | false =>
        obtain ⟨made', hmade, -, async⟩ := backs
        obtain ⟨m', callbacks, rfl⟩ := async rfl
        cases made.symm.trans hmade
  refine ⟨gone, ?_⟩
  intro inner r p registered number
  refine acceptReply_missing ?_
  cases found : s.table.find p.session with
  | none => rfl
  | some entry =>
    have own := (run.numbered few).own inv (inv.coherent.request_of_mem registered) (number ▸ found)
    exact absurd own (gone _ (SessionTable.mem_of_find found))

/-! ### Polls -/

/-- The packet of a request, under the next number. -/
def drafted (s : Engine) (m : Outbound) : Parcel :=
  (s.issuer.issue .request m.route m.metadata).1.edit fun q => { q with reserved := m.reserved }

/-- What comes of a call when it is polled for the first time and cannot be sent. -/
structure FirstPoll (setup : Setup) (inner : Inner) (s : Engine) (c : Call) (now : Nat) : Prop where
  /-- Nothing is registered and nothing is written. -/
  unencodable : ∀ {fault}, c.message.body = .error fault → ∃ issuer,
    pollCall setup inner now c.ticket s = .ok (some (.error fault), { s with
      calls := s.calls.filter fun c' => c'.ticket != c.ticket, issuer
      journal := .finished c.ticket (.error fault) :: s.journal })
  refused : c.message.Encodes → s.table.closed = true → ∃ issuer,
    pollCall setup inner now c.ticket s = .ok (some (.error (.notSent c.message.route)), { s with
      calls := s.calls.filter fun c' => c'.ticket != c.ticket, issuer
      journal := .finished c.ticket (.error (.notSent c.message.route)) :: s.journal })
  unframed : s.table.closed = false → ∀ {p q fault}, (s.drafted c.message).load (c.message.body.map .value) = (p, .ok ()) →
    p.frame setup.framing = (q, .error fault) →
    ∃ t, pollCall setup inner now c.ticket s = .ok (some (.error fault), t) ∧ t.writes = s.writes
  unwritten : s.table.closed = false → ∀ {p q frame fault},
    (s.drafted c.message).load (c.message.body.map .value) = (p, .ok ()) →
    p.frame setup.framing = (q, .ok frame) → s.line.result s.writes frame = .error fault →
    ∀ {r t}, pollCall setup inner now c.ticket s = .ok (r, t) → r = some (.error fault)

/-- What comes of a call that waits when it is polled. -/
structure LaterPoll (setup : Setup) (inner : Inner) (s : Engine) (c : Call) (now : Nat) : Prop where
  replied : ∀ {p}, .matched c.ticket p ∈ s.journal →
    ∃ t, pollCall setup inner now c.ticket s = .ok (some p.carried, t)
  closed : ∀ {r}, EndedBy s.journal c.ticket r .closed →
    ∃ t, pollCall setup inner now c.ticket s = .ok (some (.error (.notAnswered c.message.route)), t)
  expired : ∀ {r limit began}, Awaits s.journal c.ticket r → c.message.timeout = some limit →
    .began c.ticket began ∈ s.journal → began + limit.nanoseconds ≤ now →
    ∃ t, pollCall setup inner now c.ticket s = .ok (some (.error (.callTimedOut c.message.route limit)), t)
  undecided : ∀ {r}, Awaits s.journal c.ticket r →
    (∀ {limit began}, c.message.timeout = some limit → .began c.ticket began ∈ s.journal →
      now < began + limit.nanoseconds) →
    ∃ t, pollCall setup inner now c.ticket s = .ok (none, t)

/-- A call in progress is the only one with its ticket. -/
theorem takeCall_of_mem (inv : Inv setup s H) (h : c ∈ s.calls) : takeCall c.ticket s =
    .ok (some c, { s with calls := s.calls.filter fun c' => c'.ticket != c.ticket }) := by
  have found : s.calls.find? (fun c' => c'.ticket == c.ticket) = some c :=
    find_of_mem Call.ticket (inv.single_call c.ticket) h
  exact modifyGet_eq_ok.mpr (by rw [found])

theorem write_result {frame : Bytes} {result : Except Fault Unit} (h : write inner frame s = .ok (result, u)) :
    result = s.line.result s.writes frame := by
  unfold write at h
  obtain ⟨_, _, hget, h⟩ := bind_eq_ok.mp h
  obtain ⟨rfl, rfl⟩ := get_eq_ok.mp hget
  obtain ⟨_, v, -, h⟩ := bind_eq_ok.mp h
  obtain ⟨_, w, -, h⟩ := bind_eq_ok.mp h
  obtain ⟨rfl, -⟩ := pure_eq_ok.mp h
  rfl

theorem pollCall_created {now : Nat} (inv : Inv setup s H) (h : c ∈ s.calls) (created : c.phase = .created) :
    pollCall setup inner now c.ticket s =
      sendCall setup inner now c { s with calls := s.calls.filter fun c' => c'.ticket != c.ticket } := by
  unfold pollCall
  rw [bind_of_ok (takeCall_of_mem inv h)]
  simp only [created]

theorem issue_drafted (s : Engine) (m : Outbound) (calls : List Call) : issue .request m { s with calls } =
    .ok (s.drafted m, { s with calls, issuer := (s.issuer.issue .request m.route m.metadata).2 }) := rfl

theorem pollCall_unencodable (inv : Inv setup s H) (inner : Inner) (now : Nat) (h : c ∈ s.calls)
    (created : c.phase = .created) {fault : Fault} (body : c.message.body = .error fault) : ∃ issuer,
    pollCall setup inner now c.ticket s = .ok (some (.error fault), { s with
      calls := s.calls.filter fun c' => c'.ticket != c.ticket, issuer
      journal := .finished c.ticket (.error fault) :: s.journal }) := by
  have loaded : (s.drafted c.message).load (c.message.body.map .value) = (s.drafted c.message, .error fault) := by
    rw [body]
    rfl
  rw [pollCall_created inv h created]
  unfold sendCall
  rw [bind_of_ok (issue_drafted _ _ _)]
  simp only [loaded]
  exact ⟨_, rfl⟩

theorem pollCall_refused (inv : Inv setup s H) (inner : Inner) (now : Nat) (h : c ∈ s.calls)
    (created : c.phase = .created) (encodes : c.message.Encodes) (closed : s.table.closed = true) : ∃ issuer,
    pollCall setup inner now c.ticket s = .ok (some (.error (.notSent c.message.route)), { s with
      calls := s.calls.filter fun c' => c'.ticket != c.ticket, issuer
      journal := .finished c.ticket (.error (.notSent c.message.route)) :: s.journal }) := by
  obtain ⟨octets, body⟩ := encodes
  have loaded : (s.drafted c.message).load (c.message.body.map .value) =
      ((s.drafted c.message).edit fun q => q.carry (.value octets), .ok ()) := by
    rw [body]
    rfl
  rw [pollCall_created inv h created]
  unfold sendCall
  rw [bind_of_ok (issue_drafted _ _ _)]
  simp only [loaded]
  rw [bind_of_ok (register_of_closed (by exact closed))]
  exact ⟨_, rfl⟩

theorem firstPoll (inv : Inv setup s 0) (numbered : Numbered s) (few : s.issuer.drawn < numbers)
    (h : c ∈ s.calls) (created : c.phase = .created) (inner : Inner) (now : Nat) :
    FirstPoll setup inner s c now := by
  -- The next number is in no use, so an open connection registers the request.
  have free : s.table.find (s.drafted c.message).session = none := numbered.next_free inv few
  have numbered : ∀ {content p x}, (s.drafted c.message).load content = (p, .ok x) →
      p.session = (s.drafted c.message).session := fun h => (Parcel.load_eq_ok h).2
  refine ⟨fun body => pollCall_unencodable inv inner now h created body,
    fun encodes closed => pollCall_refused inv inner now h created encodes closed, ?_, ?_⟩
  · intro isOpen p q fault loaded framed
    have sent : send setup inner p = pure (q, .error fault) := by
      unfold send
      rw [framed]
    rw [pollCall_created inv h created]
    unfold sendCall
    rw [bind_of_ok (issue_drafted _ _ _)]
    simp only [loaded]
    rw [bind_of_ok (register_of_open (by exact isOpen) (by rw [numbered loaded]; exact free)), sent]
    exact ⟨_, rfl, rfl⟩
  · intro isOpen p q frame fault loaded framed fails r t h
    have sent : send setup inner p = (write inner frame >>= fun result => pure (q, result)) := by
      unfold send
      rw [framed]
    rw [pollCall_created inv ‹_› created] at h
    unfold sendCall at h
    rw [bind_of_ok (issue_drafted _ _ _)] at h
    simp only [loaded] at h
    rw [bind_of_ok (register_of_open (by exact isOpen) (by rw [numbered loaded]; exact free)), sent] at h
    dsimp only at h
    obtain ⟨⟨q', result⟩, u, hsend, h⟩ := bind_eq_ok.mp h
    obtain ⟨written, v, hwrite, hpure⟩ := bind_eq_ok.mp hsend
    obtain ⟨heq, rfl⟩ := pure_eq_ok.mp hpure
    obtain ⟨rfl, rfl⟩ := Prod.mk.inj heq
    obtain rfl : written = .error fault := (write_result hwrite).trans fails
    obtain ⟨_, w, -, h⟩ := bind_eq_ok.mp h
    obtain ⟨_, x, -, h⟩ := bind_eq_ok.mp h
    exact (finishSession_eq_ok h).1

theorem lookup_of_mail {mail : List Parcel} (h : (s.standing t).mail = mail) : s.mail.lookup t = mail.head? :=
  lookup_eq_head?_mailOf.trans (congrArg List.head? h)

/-- What ended the session of a call first has decided its fate. -/
theorem fate_of_ended {J : List Entry} {r : Packet} {e : Entry} {fate : Fate} (coherent : Coherent setup J)
    (h : EndedBy J t r e) (concerns : e.concerns t = true)
    (own : ∀ {a : Account}, a.fate = .awaiting r → (a.told e).fate = fate) (settled : ∀ r', fate ≠ .awaiting r')
    (there : fate ≠ .unregistered) : (account t J).fate = fate := by
  obtain ⟨later, since, earlier, rfl, -, none⟩ := h
  have waits : Awaits (since ++ .registered t r :: earlier) t r := ⟨since, earlier, rfl, none⟩
  have ended : (account t (e :: (since ++ .registered t r :: earlier))).fate = fate := by
    rw [account_cons_of_concerns concerns]
    exact own (waits.fate coherent.drop.2)
  exact (fate_append (ended ▸ settled) (ended ▸ there)).trans ended

/-- The closing of a connection ends the session of a call that nothing ended before. -/
theorem fate_of_closed {J : List Entry} {r : Packet} (coherent : Coherent setup J) (h : EndedBy J t r .closed) :
    (account t J).fate = .closed r :=
  fate_of_ended coherent h rfl (fun awaiting => congrArg Account.fate (Account.told_closed awaiting)) nofun nofun

theorem fate_of_expired {J : List Entry} {r : Packet} {now : Nat} (coherent : Coherent setup J)
    (h : EndedBy J t r (.expired t now)) : (account t J).fate = .expired r now :=
  fate_of_ended coherent h (beq_self_eq_true t)
    (fun awaiting => congrArg Account.fate (Account.told_expired awaiting)) nofun nofun

/-- Whoever waits finds the session in the table and no reply while nothing has ended the session. -/
theorem Inv.attending (inv : Inv setup s 0) {r r' : Packet} (listens : (s.standing t).Listens t r)
    (awaits : Awaits s.journal t r') : s.mail.lookup t = none ∧ s.table.holds t = true := by
  obtain ⟨-, sessions, mail⟩ := listens.of_awaiting (awaits.fate inv.coherent)
  refine ⟨lookup_of_mail mail, SessionTable.holds_iff.mpr ?_⟩
  change (s.standing t).sessions ≠ []
  rw [sessions]
  exact List.cons_ne_nil _ _

/-- After a session was ended by closing there is neither a reply nor the session. -/
theorem Inv.closed_off (inv : Inv setup s 0) {r : Packet} (ended : EndedBy s.journal t r .closed) :
    s.mail.lookup t = none ∧ s.table.holds t = false := by
  have fate : (s.standing t).account.fate = .closed r := fate_of_closed inv.coherent ended
  have sound := inv.sound t
  unfold Standing.Sound at sound
  rw [fate] at sound
  refine ⟨lookup_of_mail sound.2, ?_⟩
  by_contra held
  exact SessionTable.holds_iff.mp (Bool.eq_true_of_not_eq_false held) sound.1

section

variable {now : Nat} {session : UInt64} {deadline : Option (Nat × Duration)}

theorem awaitReply_replied {p : Parcel} (found : s.mail.lookup c.ticket = some p) :
    ∃ t, awaitReply now c session deadline s = .ok (some p.carried, t) := by
  unfold awaitReply
  rw [bind_of_ok (takeMail_eq_ok.mpr ⟨found, rfl⟩)]
  exact ⟨_, rfl⟩

theorem awaitReply_gone (unread : s.mail.lookup c.ticket = none) (gone : s.table.holds c.ticket = false) :
    ∃ t, awaitReply now c session deadline s = .ok (some (.error (.notAnswered c.message.route)), t) := by
  unfold awaitReply
  rw [bind_of_ok (takeMail_eq_ok.mpr ⟨unread, unmail_of_lookup unread⟩)]
  dsimp only
  rw [bind_of_ok (get_eq_ok.mpr ⟨rfl, rfl⟩)]
  simp only [gone, Bool.not_false, if_true]
  exact ⟨_, rfl⟩

theorem awaitReply_expired {limit : Duration} (unread : s.mail.lookup c.ticket = none)
    (held : s.table.holds c.ticket = true) (late : passed now deadline = some limit) :
    ∃ t, awaitReply now c session deadline s = .ok (some (.error (.callTimedOut c.message.route limit)), t) := by
  unfold awaitReply
  rw [bind_of_ok (takeMail_eq_ok.mpr ⟨unread, unmail_of_lookup unread⟩)]
  dsimp only
  rw [bind_of_ok (get_eq_ok.mpr ⟨rfl, rfl⟩)]
  simp only [held, Bool.not_true, Bool.false_eq_true, if_false, late]
  exact ⟨_, rfl⟩

theorem awaitReply_undecided (unread : s.mail.lookup c.ticket = none)
    (held : s.table.holds c.ticket = true) (early : passed now deadline = none) :
    ∃ t, awaitReply now c session deadline s = .ok (none, t) := by
  unfold awaitReply
  rw [bind_of_ok (takeMail_eq_ok.mpr ⟨unread, unmail_of_lookup unread⟩)]
  dsimp only
  rw [bind_of_ok (get_eq_ok.mpr ⟨rfl, rfl⟩)]
  simp only [held, Bool.not_true, Bool.false_eq_true, if_false, early]
  exact ⟨_, rfl⟩

end

theorem laterPoll (inv : Inv setup s 0) (h : c ∈ s.calls) (waiting : c.phase ≠ .created) (inner : Inner) (now : Nat) :
    LaterPoll setup inner s c now := by
  have fits : (Token.calling c).Fits (s.standing c.ticket) := inv.fits _ (calling_mem_estate h)
  obtain ⟨made, failed, hphase⟩ := fits
  cases phase : c.phase with
  | created => exact absurd phase waiting
  | waiting session deadline =>
    simp only [phase] at hphase
    obtain ⟨encodes, r, start, rfl, hstart, rfl, listens⟩ := hphase
    have polled : pollCall setup inner now c.ticket s = awaitReply now c r.session (deadlineFrom start c.message)
        { s with calls := s.calls.filter fun c' => c'.ticket != c.ticket } := by
      unfold pollCall
      rw [bind_of_ok (takeCall_of_mem inv h)]
      simp only [phase]
    refine ⟨?_, ?_, ?_, ?_⟩
    · intro p matched
      rw [polled]
      obtain ⟨r', fate⟩ := inv.coherent.fate_of_matched matched
      cases listens with
      | handed q hfate mail =>
        obtain ⟨rfl, rfl⟩ := Fate.replied.inj (hfate.symm.trans fate)
        exact awaitReply_replied (lookup_of_mail (s := s) mail)
      -- A reply that was matched was handed over, and stays until it is collected.
      | awaiting hfate | closed hfate | removed hfate => cases hfate.symm.trans fate
    · intro r' ended
      rw [polled]
      obtain ⟨unread, gone⟩ := inv.closed_off ended
      exact awaitReply_gone unread gone
    · intro r' limit began awaits timed waited late
      rw [polled]
      obtain ⟨unread, held⟩ := inv.attending listens awaits
      obtain rfl : start = began := Option.some.inj (hstart.symm.trans (inv.coherent.began_of_mem waited))
      refine awaitReply_expired unread held ?_
      simp [passed, deadlineFrom, timed, late]
    · intro r' awaits early
      rw [polled]
      obtain ⟨unread, held⟩ := inv.attending listens awaits
      refine awaitReply_undecided unread held ?_
      cases timed : c.message.timeout with
      | none => simp [passed, deadlineFrom, timed]
      | some limit =>
        have := early timed (mem_of_began hstart)
        simp [passed, deadlineFrom, timed]
        omega

/-! ### What polls return -/

theorem finishSession_finished {session : UInt64} {result r : Except Fault Bytes}
    (h : finishSession t session result s = .ok (some r, u)) : .finished t r ∈ u.journal := by
  obtain ⟨hr, rfl⟩ := finishSession_eq_ok h
  obtain rfl := Option.some.inj hr
  obtain ⟨es, hes, -⟩ := strike_journal (s := s.note (.finished t r)) (n := session)
  change _ ∈ ((s.note (.finished t r)).strike session).journal
  rw [hes]
  exact List.mem_append_right es List.mem_cons_self

theorem finish_finished {result r : Except Fault Bytes} (h : finish t result s = .ok (some r, u)) :
    .finished t r ∈ u.journal := by
  obtain ⟨hr, rfl⟩ := finish_eq_ok h
  obtain rfl := Option.some.inj hr
  exact List.mem_cons_self

theorem awaitReply_finished {now : Nat} {session : UInt64} {deadline : Option (Nat × Duration)}
    {r : Except Fault Bytes} (h : awaitReply now c session deadline s = .ok (some r, u)) :
    .finished c.ticket r ∈ u.journal := by
  unfold awaitReply at h
  obtain ⟨reply, v, -, h⟩ := bind_eq_ok.mp h
  cases reply with
  | some p =>
    obtain ⟨_, w, -, h⟩ := bind_eq_ok.mp h
    exact finishSession_finished h
  | none =>
    obtain ⟨_, w, -, h⟩ := bind_eq_ok.mp h
    split at h
    · exact finishSession_finished h
    · rcases hover : passed now deadline with _ | limit
      · rw [hover] at h
        obtain ⟨_, x, -, h⟩ := bind_eq_ok.mp h
        cases (pure_eq_ok.mp h).1
      · rw [hover] at h
        obtain ⟨_, x, -, h⟩ := bind_eq_ok.mp h
        exact finishSession_finished h

theorem sendCall_finished {now : Nat} {r : Except Fault Bytes}
    (h : sendCall setup inner now c s = .ok (some r, u)) : .finished c.ticket r ∈ u.journal := by
  unfold sendCall at h
  obtain ⟨p, v, -, h⟩ := bind_eq_ok.mp h
  rcases hload : p.load (c.message.body.map .value) with ⟨q, fault | _⟩
  · simp only [hload] at h
    obtain ⟨_, w, -, h⟩ := bind_eq_ok.mp h
    exact finish_finished h
  · simp only [hload] at h
    obtain ⟨answer, w, -, h⟩ := bind_eq_ok.mp h
    cases answer with
    | refused =>
      obtain ⟨_, x, -, h⟩ := bind_eq_ok.mp h
      exact finish_finished h
    | accepted =>
      obtain ⟨⟨q', result⟩, x, -, h⟩ := bind_eq_ok.mp h
      obtain ⟨_, y, -, h⟩ := bind_eq_ok.mp h
      cases result with
      | error fault =>
        obtain ⟨_, z, -, h⟩ := bind_eq_ok.mp h
        exact finishSession_finished h
      | ok _ =>
        obtain ⟨_, z, -, h⟩ := bind_eq_ok.mp h
        exact awaitReply_finished h

/-- What a poll returns is what its call came back with. -/
theorem pollCall_finished {now : Nat} {r : Except Fault Bytes}
    (h : pollCall setup inner now t s = .ok (some r, u)) : .finished t r ∈ u.journal := by
  unfold pollCall at h
  obtain ⟨found, v, htake, h⟩ := bind_eq_ok.mp h
  rcases takeCall_moves setup htake 0 with ⟨rfl, -⟩ | ⟨c, rfl, ticket, -⟩
  · cases (pure_eq_ok.mp h).1
  · rw [← ticket]
    cases phase : c.phase with
    | created =>
      simp only [phase] at h
      exact sendCall_finished h
    | waiting session deadline =>
      simp only [phase] at h
      exact awaitReply_finished h

/-! ### Every call -/

/-- A call comes back with what decided it first. What came back was decided by the first thing that could,
    and nothing is left of the call afterwards; a poll returns what its call comes back with; and each poll
    of a call in progress brings it back as soon as something has decided it, and not before. -/
theorem first_decision_counts (run : Reachable setup shared s) (few : s.issuer.drawn < numbers) :
    (∀ {later t result earlier}, s.journal = later ++ .finished t result :: earlier →
      (∃ m, .called t m ∈ earlier ∧ Conclusion earlier t m result) ∧ Over setup s t) ∧
    (∀ {depth now t result u}, pollCall setup (nested setup depth) now t s = .ok (some result, u) →
      .finished t result ∈ u.journal) ∧
    ∀ {c}, c ∈ s.calls → ∀ depth now,
      (c.phase = .created → FirstPoll setup (nested setup depth) s c now) ∧
      (c.phase ≠ .created → LaterPoll setup (nested setup depth) s c now) := by
  have inv := run.inv
  refine ⟨?_, pollCall_finished, ?_⟩
  · intro later t result earlier heq
    have coherent := inv.coherent
    rw [heq] at coherent
    obtain ⟨ended, m, made, concludes⟩ := coherent.admissible
    have justified : Justified (.finished t result :: earlier) := (heq ▸ run.justified few.le).drop
    refine ⟨⟨m, mem_of_made made, coherent.drop.2.conclusion justified ended made concludes⟩, ?_⟩
    exact run.over few.le (heq ▸ List.mem_append_right later List.mem_cons_self)
  · intro c mem depth now
    exact ⟨fun created => firstPoll inv (run.numbered few.le) few mem created _ now,
      fun waiting => laterPoll inv mem waiting _ now⟩

/-! ### A run with two time limits -/

/-- Of two calls with the same limit one is polled when it is over. Its reply comes too late, but that of
    the other is there before anyone looks at the time. -/
def overdue : Engine :=
  actAll numeric 1
    [.startCall { route := .id 7, body := .ok [1], timeout := some ⟨5⟩ },
      .startCall { route := .id 7, body := .ok [2], timeout := some ⟨5⟩ }, .pollCall 0 0, .pollCall 0 1,
      .pollCall 5 0, .receive (shortReply 1 11 11), .receive (shortReply 2 22 22)] {}

theorem reachable_overdue : Reachable numeric false overdue :=
  (Reachable.start {} {} {} true fun _ => rfl).actAll 1 _

/-- A call ended because its time was over. -/
def timedOut (ticket : Nat) (J : List Entry) : Bool :=
  J.any fun e => match e with
    | .finished t (.error (.callTimedOut _ _)) => t == ticket
    | _ => false

theorem finished_of_timedOut {J : List Entry} (h : timedOut t J = true) :
    ∃ result later earlier, J = later ++ .finished t result :: earlier := by
  obtain ⟨e, mem, h⟩ := List.any_eq_true.mp h
  split at h
  · obtain rfl := beq_iff_eq.mp h
    exact ⟨_, List.append_of_mem mem⟩
  · cases h

/-- A response with some octets ended the session of a call. -/
def metWith (ticket : Nat) (octets : Bytes) (J : List Entry) : Bool :=
  J.any fun e => match e with
    | .matched t p => t == ticket && p.payload == octets
    | _ => false

theorem matched_of_metWith {J : List Entry} {octets : Bytes} (h : metWith t octets J = true) :
    ∃ p, .matched t p ∈ J ∧ p.payload = octets := by
  obtain ⟨e, mem, h⟩ := List.any_eq_true.mp h
  split at h
  · obtain ⟨ticket, payload⟩ := Bool.and_eq_true_iff.mp h
    obtain rfl := beq_iff_eq.mp ticket
    exact ⟨_, mem, beq_iff_eq.mp payload⟩
  · cases h

/-- A call in progress has been polled. -/
def polled (ticket : Nat) (calls : List Call) : Bool :=
  calls.any fun c => match c.phase with
    | .waiting _ _ => c.ticket == ticket
    | .created => false

theorem mem_of_polled {calls : List Call} (h : polled t calls = true) :
    ∃ c ∈ calls, c.ticket = t ∧ c.phase ≠ .created := by
  obtain ⟨c, mem, h⟩ := List.any_eq_true.mp h
  refine ⟨c, mem, ?_⟩
  split at h
  · exact ⟨beq_iff_eq.mp h, by simp [*]⟩
  · cases h

theorem overdue_first_decision_counts :
    (timedOut 0 overdue.journal = true ∧ Over numeric overdue 0) ∧
    ∃ p, .matched 1 p ∈ overdue.journal ∧ p.payload = [22, 22] ∧
      ∃ t, pollCall numeric (nested numeric 1) 100 1 overdue = .ok (some p.carried, t) := by
  obtain ⟨history, -, polls⟩ := first_decision_counts reachable_overdue (by decide +kernel)
  have expired : timedOut 0 overdue.journal = true := by decide +kernel
  obtain ⟨result, later, earlier, heq⟩ := finished_of_timedOut expired
  have met : metWith 1 [22, 22] overdue.journal = true := by decide +kernel
  obtain ⟨p, matched, payload⟩ := matched_of_metWith met
  have waiting : polled 1 overdue.calls = true := by decide +kernel
  obtain ⟨c, mem, ticket, waits⟩ := mem_of_polled waiting
  refine ⟨⟨expired, (history heq).2⟩, p, matched, payload, ?_⟩
  have returned : ∀ {n}, c.ticket = n → .matched n p ∈ overdue.journal →
      ∃ t, pollCall numeric (nested numeric 1) 100 n overdue = .ok (some p.carried, t) := by
    rintro _ rfl matched
    exact ((polls mem 1 100).2 waits).replied matched
  exact returned ticket matched

end Engine
end Switchboard
