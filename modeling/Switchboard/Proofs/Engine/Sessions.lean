import Switchboard.Proofs.Engine.Telling

/-! Moves that put sessions into the table and take them out: requests are registered, responses are
    intercepted, and sessions are struck by calls that end. -/

namespace Switchboard

/-- A call awaits the reply to a request, and this is its only session. -/
structure Standing.Seated (st : Standing) (request : Packet) (n : UInt64) (entry : Session) : Prop where
  fate : st.account.fate = .awaiting request
  number : request.session = n
  sessions : st.sessions = [(n, entry)]
  mail : st.mail = []
  backs : st.account.Backs request entry

namespace Engine

variable {setup : Setup} {s s' : Engine} {t u : Nat} {H K F : Hands} {n : UInt64} {entry : Session}

theorem strike_of_some (found : s.table.find n = some entry) : s.strike n =
    { s with table := s.table.erase n, journal := .removed entry.ticket :: s.journal } := by
  unfold strike
  rw [found]

namespace Inv

/-! ### Requests are registered -/

/-- A request is registered by whoever decides how its call ends. -/
theorem enroll {taken given : Hands} {request : Packet} (entry : Session) (inv : Inv setup s (taken + F))
    (enrolls : Enrolls s request) (holders : Hands.holders entry.ticket taken = 1)
    (known : entry.ticket < s.tickets)
    (fate : (s.standing entry.ticket).account.fate = .unregistered)
    (backs : (s.standing entry.ticket).account.Backs request entry)
    (own : ∀ k ∈ given, ∀ t, k.holds t = true → t = entry.ticket)
    (tally : Hands.holders entry.ticket given + (pledges [(request.session, entry)]).length ≤ 1)
    (fits : ∀ k ∈ given, k.ticket = entry.ticket ∧
      k.Fits { account := { (s.standing entry.ticket).account with fate := .awaiting request }
               sessions := [(request.session, entry)], mail := [] }) :
    Inv setup (s.draw.enroll entry request) (given + F) := by
  have sound := inv.sound entry.ticket
  unfold Standing.Sound at sound
  rw [fate] at sound
  obtain ⟨sessions, mail⟩ := sound
  have journal : (s.draw.enroll entry request).journal = [.registered entry.ticket request] ++ s.journal := rfl
  have standing : (s.draw.enroll entry request).standing entry.ticket =
      { account := { (s.standing entry.ticket).account with fate := .awaiting request }
        sessions := [(request.session, entry)], mail := [] } := by
    have account : account entry.ticket (.registered entry.ticket request :: s.journal) =
        { (s.standing entry.ticket).account with fate := .awaiting request } := by
      rw [account_cons_of_concerns (beq_self_eq_true _)]
      change { (s.standing entry.ticket).account with fate := (s.standing entry.ticket).account.fate.register request } = _
      rw [fate]
      rfl
    unfold Engine.standing
    congr 1
    change (s.table.insert request.session entry).sessionsOf entry.ticket = _
    rw [SessionTable.sessionsOf_insert, if_pos rfl]
    change (s.standing entry.ticket).sessions ++ _ = _
    rw [sessions, List.nil_append]
  -- Whoever decided how the call ends was the only one, so nobody else in hand looks at its session.
  have alone : ∀ k ∈ s.estate F, k.holds entry.ticket = false := inv.unheld (by omega)
  refine inv.turn entry.ticket rfl rfl rfl (inv.keyed.insert enrolls.free) ?_ ⟨_, journal⟩
    ⟨fate, inv.coherent⟩ known ?_ own ?_ ?_ ?_ ?_
  · intro closed
    rw [show (s.draw.enroll entry request).table.closed = s.table.closed from rfl, enrolls.isOpen] at closed
    cases closed
  · intro t ht
    unfold Engine.standing
    congr 1
    · rw [journal]
      exact account_cons_of_not (by simpa [Entry.concerns] using Ne.symm ht)
    · change (s.table.insert request.session entry).sessionsOf t = _
      rw [SessionTable.sessionsOf_insert, if_neg (Ne.symm ht), List.append_nil]
  · rw [standing]
    refine ⟨⟨entry, rfl, ?_⟩, rfl⟩
    cases entry <;> exact backs
  · have ended : (s.standing entry.ticket).account.ends = [] := by
      have := inv.tally entry.ticket
      rw [estate_add, Hands.holders_add, if_pos known] at this
      unfold Standing.stakes at this
      exact List.length_eq_zero_iff.mp (by omega)
    rw [standing]
    unfold Standing.stakes
    dsimp only
    rw [ended, List.length_nil]
    omega
  · intro k hk h
    rw [alone k hk] at h
    cases h
  · intro k hk
    obtain ⟨hticket, h⟩ := fits k hk
    rw [hticket, standing]
    exact h

theorem enrollCall {c : Call} {request : Packet} (inv : Inv setup s ({.calling c} + F))
    (phase : c.phase = .created) (encodes : c.message.Encodes) (enrolls : Enrolls s request) :
    Inv setup (s.draw.enroll (.waiting c.ticket true) request) ({.sending c request.session} + F) := by
  obtain ⟨made, failed, hphase⟩ := inv.fits_of_mem (k := .calling c) (by simp)
  simp only [phase] at hphase
  obtain ⟨fate, began⟩ := hphase
  refine inv.enroll (.waiting c.ticket true) enrolls ?_ (inv.known_of_made made) fate
    ⟨_, made, trivial, by simp⟩ ?_ ?_ ?_
  · simp [Token.holds, Token.ticket, Session.ticket]
  · intro k hk t ht
    rw [Multiset.mem_singleton.mp hk] at ht
    exact (beq_iff_eq.mp ht).symm
  · simp [Token.holds, Token.ticket, Session.ticket, pledges, Session.pending?]
  · intro k hk
    rw [Multiset.mem_singleton.mp hk]
    exact ⟨rfl, made, failed, began, encodes, request, rfl, .awaiting rfl rfl rfl⟩

theorem enrollCallbacks {m : Outbound} {pending : Pending}
    (inv : Inv setup s ({.parcel, .asked pending.ticket m pending.callbacks} + F)) (patient : m.timeout = none)
    (enrolls : Enrolls s pending.request.toPacket) :
    Inv setup (s.draw.enroll (.callback pending) pending.request.toPacket) ({.placed m pending} + F) := by
  obtain ⟨made, failed, began, fate⟩ :=
    inv.fits_of_mem (k := .asked pending.ticket m pending.callbacks) (by simp)
  refine inv.enroll (.callback pending) enrolls ?_ (inv.known_of_made made) fate
    ⟨rfl, m, made, patient⟩ ?_ ?_ ?_
  · simp [Token.holds, Token.ticket, Session.ticket]
  · simp [Token.holds]
  · simp [Token.holds, pledges, Session.pending?]
  · intro k hk
    rw [Multiset.mem_singleton.mp hk]
    exact ⟨rfl, made, patient, rfl⟩

theorem enrollWait {m : Outbound} {pending : Pending}
    (inv : Inv setup s ({.parcel, .asked pending.ticket m pending.callbacks} + F)) (timed : m.timeout.isSome)
    (enrolls : Enrolls s pending.request.toPacket) :
    Inv setup (s.draw.enroll (.waiting pending.ticket true) pending.request.toPacket)
      ({.promised m pending} + F) := by
  obtain ⟨made, failed, began, fate⟩ :=
    inv.fits_of_mem (k := .asked pending.ticket m pending.callbacks) (by simp)
  refine inv.enroll (.waiting pending.ticket true) enrolls ?_ (inv.known_of_made made) fate
    ⟨_, made, timed, by simp⟩ ?_ ?_ ?_
  · simp [Token.holds, Token.ticket, Session.ticket]
  · intro k hk t ht
    rw [Multiset.mem_singleton.mp hk] at ht
    exact (beq_iff_eq.mp ht).symm
  · simp [Token.holds, Token.ticket, Session.ticket, pledges, Session.pending?]
  · intro k hk
    rw [Multiset.mem_singleton.mp hk]
    exact ⟨rfl, made, failed, began, timed, .awaiting rfl rfl rfl⟩

/-! ### Sessions leave the table -/

/-- What a number finds is the session of a call that awaits its reply. -/
theorem found (inv : Inv setup s H) (found : s.table.find n = some entry) :
    ∃ r, (s.standing entry.ticket).Seated r n entry := by
  have mem : (n, entry) ∈ (s.standing entry.ticket).sessions :=
    SessionTable.mem_sessionsOf.mpr ⟨SessionTable.mem_of_find found, rfl⟩
  have sound := inv.sound entry.ticket
  unfold Standing.Sound at sound
  -- A ticket has a session only while it awaits its reply, and then it has one.
  cases hfate : (s.standing entry.ticket).account.fate with
  | awaiting r =>
    simp only [hfate] at sound
    obtain ⟨⟨entry', sessions, backs⟩, mail⟩ := sound
    rw [sessions] at mem
    obtain ⟨rfl, rfl⟩ := Prod.mk.inj (List.mem_singleton.mp mem)
    exact ⟨r, hfate, rfl, sessions, mail, backs⟩
  | _ =>
    simp only [hfate] at sound
    rw [sound.1] at mem
    cases mem

/-- A session leaves the table. -/
theorem depart {taken given : Hands} (inv : Inv setup s (taken + F)) (found : s.table.find n = some entry)
    (es : List Entry) (table : s'.table = s.table.erase n) (calls : s'.calls = s.calls)
    (waits : s'.waits = s.waits) (tickets : s'.tickets = s.tickets) (journal : s'.journal = es ++ s.journal)
    (about : ∀ e ∈ es, ∀ t, t ≠ entry.ticket → e.concerns t = false)
    (coherent : Coherent setup (es ++ s.journal))
    (mail : ∀ t, t ≠ entry.ticket → mailOf t s'.mail = mailOf t s.mail)
    (own : ∀ k ∈ given, ∀ t, k.holds t = true → t = entry.ticket)
    (sound : (Standing.mk (account entry.ticket (es ++ s.journal)) [] (mailOf entry.ticket s'.mail)).Sound)
    (tally : Hands.holders entry.ticket given + (account entry.ticket (es ++ s.journal)).ends.length ≤
      Hands.holders entry.ticket taken + (s.standing entry.ticket).stakes)
    (frame : ∀ k ∈ s.estate F, k.holds entry.ticket = true → k.Fits (s.standing entry.ticket) →
      k.Fits ⟨account entry.ticket (es ++ s.journal), [], mailOf entry.ticket s'.mail⟩)
    (fits : ∀ k ∈ given, (∀ st, k.Fits st) ∨ k.ticket = entry.ticket ∧
      k.Fits ⟨account entry.ticket (es ++ s.journal), [], mailOf entry.ticket s'.mail⟩) :
    Inv setup s' (given + F) := by
  obtain ⟨r, fate, number, sessions, hmail, backs⟩ := inv.found found
  have gone : (s'.standing entry.ticket).sessions = [] := by
    change s'.table.sessionsOf entry.ticket = []
    rw [table, SessionTable.sessionsOf_erase]
    change (s.standing entry.ticket).sessions.filter _ = []
    rw [sessions]
    simp
  have standing : s'.standing entry.ticket =
      ⟨account entry.ticket (es ++ s.journal), [], mailOf entry.ticket s'.mail⟩ := by
    rw [← gone, ← journal]
    rfl
  refine inv.turn entry.ticket calls waits tickets (table ▸ inv.keyed.erase n) ?_ ⟨es, journal⟩
    (journal ▸ coherent) ?_ ?_ own ?_ ?_ ?_ ?_
  · intro closed
    rw [table] at closed
    -- A closed table is empty, so nothing was found in it.
    have := (inv.shut closed).1
    have mem := SessionTable.mem_of_find found
    rw [this] at mem
    cases mem
  · cases entry with
    | waiting t listening =>
      obtain ⟨made, hmade, -⟩ := backs
      exact inv.known_of_made hmade
    | callback pending =>
      obtain ⟨-, m, hmade, -⟩ := backs
      exact inv.known_of_made hmade
  · intro t ht
    unfold Engine.standing
    congr 1
    · rw [journal]
      exact account_append fun e he => about e he t ht
    · rw [table]
      exact inv.keyed.sessionsOf_erase_of_ne found ht
    · exact mail t ht
  · rw [standing]
    exact sound
  · rw [standing]
    unfold Standing.stakes at tally ⊢
    simpa [pledges] using tally
  · intro k hk holds h
    rw [standing]
    exact frame k hk holds h
  · intro k hk
    rcases fits k hk with h | ⟨hticket, h⟩
    · exact h _
    · rw [hticket, standing]
      exact h

/-- A call that awaits a reply has a session under the number of its request. -/
theorem entry_of_awaiting (inv : Inv setup s H) {r : Packet} (fate : (account u s.journal).fate = .awaiting r) :
    ∃ entry, (r.session, entry) ∈ s.table.entries ∧ entry.ticket = u := by
  have sound := inv.sound u
  unfold Standing.Sound at sound
  rw [show (s.standing u).account.fate = .awaiting r from fate] at sound
  obtain ⟨⟨entry, sessions, -⟩, -⟩ := sound
  have mem : (r.session, entry) ∈ s.table.sessionsOf u := by
    change _ ∈ (s.standing u).sessions
    rw [sessions]
    exact List.mem_singleton_self _
  exact ⟨entry, SessionTable.mem_sessionsOf.mp mem⟩

/-- No other call awaits a reply under the number of a session. -/
theorem only (inv : Inv setup s H) (found : s.table.find n = some entry) {r : Packet}
    (fate : (account u s.journal).fate = .awaiting r) (number : r.session = n) : u = entry.ticket := by
  obtain ⟨entry', mem, hticket⟩ := inv.entry_of_awaiting fate
  rw [number] at mem
  rw [inv.keyed.eq_of_mem (SessionTable.mem_of_find found) mem]
  exact hticket.symm

/-- Where a number finds no session, no call awaits a reply under it. -/
theorem missing (inv : Inv setup s H) (missing : s.table.find n = none) {r : Packet}
    (fate : (account u s.journal).fate = .awaiting r) : r.session ≠ n := by
  obtain ⟨entry', mem, -⟩ := inv.entry_of_awaiting fate
  exact SessionTable.find_eq_none_iff.mp missing _ mem

theorem admissible_matched (inv : Inv setup s H) {p : Packet} (response : p.command = .response)
    (found : s.table.find p.session = some entry) : Admissible setup s.journal (.matched entry.ticket p) := by
  obtain ⟨r, fate, number, -⟩ := inv.found found
  exact ⟨response, ⟨r, fate, number⟩, fun u r' fate' number' => inv.only found fate' number'⟩

theorem told_matched {t : Nat} {p r : Packet} (fate : (s.standing t).account.fate = .awaiting r) :
    account t (.matched t p :: s.journal) = { (s.standing t).account with fate := .replied r p } := by
  rw [account_cons_of_concerns (beq_self_eq_true _)]
  exact Account.told_matched fate

/-- A response meets callbacks, which are run with it. -/
theorem matchCallbacks {p : Packet} {pending : Pending} (inv : Inv setup s ({.parcel} + F))
    (response : p.command = .response) (found : s.table.find p.session = some (.callback pending)) :
    Inv setup
      { s with
        table := s.table.erase p.session
        journal := .delivered pending p :: .matched pending.ticket p :: s.journal }
      ({.parcel, .parcel} + F) := by
  obtain ⟨r, fate, -, sessions, mail, request, m, made, -⟩ := inv.found found
  have matched : account pending.ticket (.matched pending.ticket p :: s.journal) = _ := told_matched fate
  have told : account pending.ticket ([.delivered pending p, .matched pending.ticket p] ++ s.journal) =
      { (s.standing pending.ticket).account with
        fate := .replied r p, ends := .delivered pending p :: (s.standing pending.ticket).account.ends } := by
    change account pending.ticket (.delivered pending p :: .matched pending.ticket p :: s.journal) = _
    rw [account_cons_of_concerns (beq_self_eq_true _), matched]
    rfl
  have stakes : (s.standing pending.ticket).stakes = 1 + (s.standing pending.ticket).account.ends.length := by
    unfold Standing.stakes
    rw [show (s.standing pending.ticket).sessions = _ from sessions]
    rfl
  -- Callbacks in the table are a stake in their call, so the call has not ended.
  have ended : (s.standing pending.ticket).account.ends = [] := by
    have tally := inv.tally pending.ticket
    rw [stakes] at tally
    exact List.length_eq_zero_iff.mp (by split at tally <;> omega)
  have delivers : Admissible setup (.matched pending.ticket p :: s.journal) (.delivered pending p) := by
    refine ⟨?_, m, ?_, ?_, ?_⟩
    · rw [matched]
      exact ended
    · rw [matched]
      exact made
    · rw [matched, request]
      rfl
    · rw [matched]
  refine inv.depart found [.delivered pending p, .matched pending.ticket p] rfl rfl rfl rfl rfl ?_
    ⟨delivers, inv.admissible_matched response found, inv.coherent⟩ (fun _ _ => rfl) ?_ ?_ ?_ ?_ ?_
  · intro e he t ht
    have ht : t ≠ pending.ticket := ht
    rcases List.mem_cons.mp he with rfl | he
    · simpa [Entry.concerns] using Ne.symm ht
    · rw [List.mem_singleton.mp he]
      simpa [Entry.concerns] using Ne.symm ht
  · simp [Token.holds]
  · change (Standing.mk (account pending.ticket _) [] (s.standing pending.ticket).mail).Sound
    rw [told, show (s.standing pending.ticket).mail = [] from mail]
    exact ⟨rfl, .inl rfl⟩
  · change Hands.holders pending.ticket _ + (account pending.ticket _).ends.length ≤
      Hands.holders pending.ticket _ + (s.standing pending.ticket).stakes
    rw [told, stakes, ended]
    simp [Token.holds]
  · intro k hk holds
    rw [inv.unheld (by change 1 ≤ _ + (s.standing pending.ticket).stakes; omega) k hk] at holds
    cases holds
  · simp [Token.Fits]

/-- A response meets someone who waits, and is handed over. -/
theorem matchWaiting {p : Parcel} {ticket : Nat} (inv : Inv setup s ({.parcel} + F))
    (response : p.command = .response) (found : s.table.find p.session = some (.waiting ticket true)) :
    Inv setup
      { s with
        table := s.table.erase p.session, mail := s.mail ++ [(ticket, p)]
        journal := .matched ticket p.toPacket :: s.journal } (0 + F) := by
  obtain ⟨r, fate, -, sessions, mail, -⟩ := inv.found found
  have told : account ticket ([.matched ticket p.toPacket] ++ s.journal) = _ := told_matched fate
  have handed : mailOf ticket (s.mail ++ [(ticket, p)]) = (s.standing ticket).mail ++ [p] := by
    rw [mailOf_append, if_pos rfl]
    rfl
  refine inv.depart found [.matched ticket p.toPacket] rfl rfl rfl rfl rfl ?_
    ⟨inv.admissible_matched response found, inv.coherent⟩ ?_ (by simp) ?_ ?_ ?_ (by simp)
  · intro e he t ht
    have ht : t ≠ ticket := ht
    rw [List.mem_singleton.mp he]
    simpa [Entry.concerns] using Ne.symm ht
  · intro t ht
    have ht : t ≠ ticket := ht
    rw [mailOf_append, if_neg (Ne.symm ht), List.append_nil]
  · change (Standing.mk (account ticket _) [] (mailOf ticket _)).Sound
    rw [told, handed, show (s.standing ticket).mail = [] from mail]
    exact ⟨rfl, .inr ⟨p, rfl, rfl⟩⟩
  · change Hands.holders ticket _ + (account ticket _).ends.length ≤ _ + (s.standing ticket).stakes
    rw [told]
    unfold Standing.stakes
    simp [Token.holds]
  · intro k hk _ fits
    refine fits.drift (.handed r p fate told handed)

/-- A response meets a session that nobody waits for any more. -/
theorem matchNobody {p : Packet} {ticket : Nat} (inv : Inv setup s H) (response : p.command = .response)
    (found : s.table.find p.session = some (.waiting ticket false)) :
    Inv setup { s with table := s.table.erase p.session, journal := .matched ticket p :: s.journal } H := by
  obtain ⟨r, fate, -, sessions, mail, -⟩ := inv.found found
  have told : account ticket ([.matched ticket p] ++ s.journal) = _ := told_matched fate
  have inv' : Inv setup s (0 + H) := (Multiset.zero_add H).symm ▸ inv
  rw [← Multiset.zero_add H]
  refine inv'.depart found [.matched ticket p] rfl rfl rfl rfl rfl ?_
    ⟨inv.admissible_matched response found, inv.coherent⟩ (fun _ _ => rfl) (by simp) ?_ ?_ ?_ (by simp)
  · intro e he t ht
    have ht : t ≠ ticket := ht
    rw [List.mem_singleton.mp he]
    simpa [Entry.concerns] using Ne.symm ht
  · change (Standing.mk (account ticket _) [] (s.standing ticket).mail).Sound
    rw [told, show (s.standing ticket).mail = [] from mail]
    exact ⟨rfl, .inl rfl⟩
  · change Hands.holders ticket _ + (account ticket _).ends.length ≤ _ + (s.standing ticket).stakes
    rw [told]
    unfold Standing.stakes
    simp
  · intro k hk _ fits
    refine fits.drift (.met r p fate told ?_)
    -- Whoever listened would have a session that listens, and the one there is does not.
    intro n t h
    rw [sessions] at h
    simp at h

/-- A call that ends takes out of the table whatever is there under its number. -/
theorem strike (inv : Inv setup s H) (n : UInt64) : Inv setup (s.strike n) H := by
  cases found : s.table.find n with
  | none => exact (strike_of_find found).symm ▸ inv
  | some entry =>
    obtain ⟨r, fate, -, -, mail, -⟩ := inv.found found
    have told : account entry.ticket ([.removed entry.ticket] ++ s.journal) =
        { (s.standing entry.ticket).account with fate := .removed r } := by
      change account entry.ticket (.removed entry.ticket :: s.journal) = _
      rw [account_cons_of_concerns (beq_self_eq_true _)]
      exact Account.told_removed fate
    have inv' : Inv setup s (0 + H) := (Multiset.zero_add H).symm ▸ inv
    rw [strike_of_some found, ← Multiset.zero_add H]
    refine inv'.depart found [.removed entry.ticket] rfl rfl rfl rfl rfl ?_ ⟨trivial, inv.coherent⟩
      (fun _ _ => rfl) (by simp) ?_ ?_ ?_ (by simp)
    · intro e he t ht
      rw [List.mem_singleton.mp he]
      simpa [Entry.concerns] using Ne.symm ht
    · change (Standing.mk (account entry.ticket _) [] (s.standing entry.ticket).mail).Sound
      rw [told, mail]
      exact ⟨rfl, rfl⟩
    · rw [told]
      unfold Standing.stakes
      simp
    · intro k hk _ fits
      exact fits.drift (.removed r fate told rfl)

end Inv
end Engine
end Switchboard
