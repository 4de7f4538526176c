import Switchboard.Proofs.Engine.Sessions

/-! Moves that end calls and waits, and the closing of the connection. -/

namespace Switchboard

theorem Session.deafen_of_ne {entry : Session} {t : Nat} (h : entry.ticket ≠ t) :
    entry.deafen t = entry := by
  cases entry with
  | waiting ticket listening =>
    have h : ticket ≠ t := h
    simp [Session.deafen, h]
  | callback pending => rfl

theorem Session.ticket_deafen {entry : Session} {t : Nat} : (entry.deafen t).ticket = entry.ticket := by
  cases entry <;> rfl

namespace Engine

variable {setup : Setup} {s s' : Engine} {t u : Nat} {H K F : Hands} {n : UInt64}

/-! ### Sessions without listeners -/

theorem sessionsOf_deafen : (s.deafen u).table.sessionsOf t =
    (s.table.sessionsOf t).map fun e => (e.1, e.2.deafen u) := by
  unfold SessionTable.sessionsOf deafen
  dsimp only
  rw [List.filter_map]
  congr 1
  refine List.filter_congr fun e _ => ?_
  simp [Session.ticket_deafen]

theorem pledges_deafen {sessions : List (UInt64 × Session)} :
    pledges (sessions.map fun e => (e.1, e.2.deafen t)) = pledges sessions := by
  unfold pledges
  rw [List.filterMap_map]
  refine List.filterMap_congr fun e _ => ?_
  obtain ⟨n, entry⟩ := e
  cases entry <;> rfl

/-- The session of a request listens for the reply, and the reply has not come. -/
structure Listening (s : Engine) (t : Nat) (request : Packet) : Prop where
  fate : (s.standing t).account.fate = .awaiting request
  found : s.table.find request.session = some (.waiting t true)
  mail : (s.standing t).mail = []

namespace Inv

/-! ### Replies are collected -/

/-- The mail of a ticket is taken away by whoever decides how its call ends. -/
theorem collects {taken given : Hands} (inv : Inv setup s (taken + F)) (es : List Entry)
    (holders : 1 ≤ Hands.holders u taken) (known : u < s.tickets)
    (about : ∀ e ∈ es, ∀ t, t ≠ u → e.concerns t = false) (coherent : Coherent setup (es ++ s.journal))
    (fate : (account u (es ++ s.journal)).fate = (s.standing u).account.fate)
    (made : (account u (es ++ s.journal)).made = (s.standing u).account.made)
    (own : ∀ k ∈ given, ∀ t, k.holds t = true → t = u)
    (tally : Hands.holders u given + (account u (es ++ s.journal)).ends.length ≤ 1)
    (fits : ∀ k ∈ given, (∀ st, k.Fits st) ∨ k.ticket = u ∧
      k.Fits { s.standing u with account := account u (es ++ s.journal), mail := [] }) :
    Inv setup { s.unmail u with journal := es ++ s.journal } (given + F) := by
  have standing : Engine.standing { s.unmail u with journal := es ++ s.journal } u =
      { s.standing u with account := account u (es ++ s.journal), mail := [] } := by
    unfold Engine.standing
    congr 1
    exact mailOf_unmail.trans (if_pos rfl)
  refine inv.turn u rfl rfl rfl inv.keyed ?_ ⟨es, rfl⟩ coherent known ?_ own ?_ ?_ ?_ ?_
  · intro closed
    obtain ⟨shut, said⟩ := inv.shut closed
    exact ⟨shut, List.mem_append_right es said⟩
  · intro t ht
    unfold Engine.standing
    congr 1
    · exact account_append fun e he => about e he t ht
    · exact mailOf_unmail.trans (if_neg (Ne.symm ht))
  · rw [standing]
    exact ((inv.sound u).unmailed).congr fate made rfl rfl
  · rw [standing]
    unfold Standing.stakes
    dsimp only
    omega
  · intro k hk holds
    rw [inv.unheld (by omega) k hk] at holds
    cases holds
  · intro k hk
    rcases fits k hk with h | ⟨rfl, h⟩
    · exact h _
    · rw [standing]
      exact h

theorem collect {c : Call} {session : UInt64} {deadline : Option (Nat × Duration)} {p : Parcel}
    (inv : Inv setup s ({.calling c} + F)) (phase : c.phase = .waiting session deadline)
    (found : s.mail.lookup c.ticket = some p) :
    Inv setup (s.unmail c.ticket) ({.parcel, .ending c session p.carried} + F) := by
  have hk : Token.calling c ∈ ({.calling c} : Hands) := Multiset.mem_singleton_self _
  have holds : (Token.calling c).holds c.ticket = true := beq_self_eq_true _
  have fits : (Token.calling c).Fits (s.standing c.ticket) := inv.fits_of_mem (Multiset.mem_add.mpr (.inl hk))
  obtain ⟨made, failed, hphase⟩ := fits
  simp only [phase] at hphase
  obtain ⟨encodes, r, now, number, began, -, listens⟩ := hphase
  obtain ⟨ended, -⟩ := inv.live (mem_estate (Multiset.mem_add.mpr (.inl hk))) holds
  obtain ⟨fate, -⟩ := listens.handed_of_mail (lookup_eq_head?_mailOf.symm.trans found)
  refine inv.collects [] (Hands.one_le_holders hk holds) (inv.known_of_made made) (by simp) inv.coherent
    rfl rfl ?_ ?_ ?_
  · simp [Token.holds, Token.ticket]
  · have : (account c.ticket s.journal).ends = [] := ended
    simp [this, Token.holds, Token.ticket]
  · intro k hk
    rcases Multiset.mem_cons.mp hk with rfl | hk
    · exact .inl fun _ => trivial
    · rw [Multiset.mem_singleton.mp hk]
      refine .inr ⟨rfl, made, failed, encodes, Option.isSome_iff_exists.mpr ⟨now, began⟩, rfl, ?_, r, ?_, number⟩
      · change (s.standing c.ticket).account.fate.Decides _ _
        rw [fate]
        rfl
      · exact listens.request?

theorem collectWait {w : Wait} {p : Parcel} (inv : Inv setup s ({.watching w} + F))
    (found : s.mail.lookup w.pending.ticket = some p) :
    Inv setup ((s.unmail w.pending.ticket).note (.delivered w.pending p.toPacket)) ({.parcel, .parcel} + F) := by
  have hk : Token.watching w ∈ ({.watching w} : Hands) := Multiset.mem_singleton_self _
  have holds : (Token.watching w).holds w.pending.ticket = true := beq_self_eq_true _
  have fits : (Token.watching w).Fits (s.standing w.pending.ticket) :=
    inv.fits_of_mem (Multiset.mem_add.mpr (.inl hk))
  obtain ⟨failed, -, ⟨m, made, timed⟩, listens⟩ := fits
  obtain ⟨ended, -⟩ := inv.live (mem_estate (Multiset.mem_add.mpr (.inl hk))) holds
  obtain ⟨fate, -⟩ := listens.handed_of_mail (lookup_eq_head?_mailOf.symm.trans found)
  have delivers : (s.standing w.pending.ticket).account.Delivers w.pending p.toPacket :=
    ⟨m, made, listens.request?, by rw [fate]⟩
  have told : account w.pending.ticket ([.delivered w.pending p.toPacket] ++ s.journal) =
      (s.standing w.pending.ticket).account.told (.delivered w.pending p.toPacket) :=
    account_cons_of_concerns (beq_self_eq_true _)
  refine inv.collects [.delivered w.pending p.toPacket] (Hands.one_le_holders hk holds)
    (inv.known_of_made made) ?_ ⟨⟨ended, delivers⟩, inv.coherent⟩ (by rw [told]; rfl) (by rw [told]; rfl) ?_ ?_ ?_
  · intro e he t ht
    rw [List.mem_singleton.mp he]
    simpa [Entry.concerns] using Ne.symm ht
  · simp [Token.holds]
  · rw [told]
    simp [Account.told, ended, Token.holds]
  · simp [Token.Fits]

/-- A reply that nobody is left to collect is dropped. -/
theorem unmail (inv : Inv setup s H) (none : (s.estate H).holders t = 0) : Inv setup (s.unmail t) H := by
  cases found : s.mail.lookup t with
  | none => exact (unmail_of_lookup found).symm ▸ inv
  | some p =>
    have standing : (s.unmail t).standing t = { s.standing t with mail := [] } := by
      unfold Engine.standing
      congr 1
      exact mailOf_unmail.trans (if_pos rfl)
    -- There is mail only for tickets that were given out.
    have known : t < s.tickets := by
      by_contra hlt
      have sound := inv.sound t
      unfold Standing.Sound at sound
      rw [inv.fresh t (Nat.le_of_not_lt hlt)] at sound
      rw [lookup_eq_head?_mailOf, show mailOf t s.mail = [] from sound.2] at found
      cases found
    have inv' : Inv setup s (0 + H) := (Multiset.zero_add H).symm ▸ inv
    rw [← Multiset.zero_add H]
    refine inv'.turn t rfl rfl rfl inv.keyed inv.shut ⟨[], rfl⟩ inv.coherent known ?_ (by simp) ?_ ?_ ?_ (by simp)
    · intro t' ht
      unfold Engine.standing
      congr 1
      exact mailOf_unmail.trans (if_neg (Ne.symm ht))
    · rw [standing]
      exact (inv.sound t).unmailed
    · rw [standing]
      rfl
    · intro k hk holds
      have := Hands.one_le_holders hk holds
      omega

/-- A call that has ended takes its session and its mail with it. -/
theorem leave (inv : Inv setup s H) (n : UInt64) (none : (s.estate H).holders t = 0) :
    Inv setup ((s.strike n).unmail t) H := (inv.strike n).unmail none

/-! ### Time runs out -/

theorem passed_deadlineFrom {now began : Nat} {m : Outbound} {limit : Duration}
    (h : passed now (deadlineFrom began m) = some limit) :
    m.timeout = some limit ∧ began + limit.nanoseconds ≤ now := by
  unfold passed deadlineFrom at h
  cases htimeout : m.timeout with
  | none =>
    rw [htimeout] at h
    cases h
  | some time =>
    rw [htimeout] at h
    dsimp only [Option.map_some] at h
    split at h
    · rename_i late
      cases h
      exact ⟨rfl, late⟩
    · cases h

/-- A session in the table is found under the number of its request. -/
theorem find_of_listens (inv : Inv setup s H) {r : Packet} (listens : (s.standing t).Listens t r)
    (held : s.table.holds t = true) : s.Listening t r := by
  obtain ⟨fate, sessions, mail⟩ := listens.awaiting_of_sessions (inv.sound t) (SessionTable.holds_iff.mp held)
  have mem : (r.session, .waiting t true) ∈ s.table.sessionsOf t := by
    change _ ∈ (s.standing t).sessions
    rw [sessions]
    exact List.mem_singleton_self _
  exact ⟨fate, inv.keyed.find_of_mem (SessionTable.mem_sessionsOf.mp mem).1, mail⟩

/-- The time of a call is over while its session is in the table. -/
theorem expire {c : Call} {session : UInt64} {deadline : Option (Nat × Duration)} {now : Nat}
    {limit : Duration} (inv : Inv setup s ({.calling c} + F)) (phase : c.phase = .waiting session deadline)
    (held : s.table.holds c.ticket = true) (late : passed now deadline = some limit) :
    Inv setup ((((s.note (.expired c.ticket now)).note
      (.finished c.ticket (.error (.callTimedOut c.message.route limit)))).strike session).unmail c.ticket)
      (0 + F) := by
  have hk : Token.calling c ∈ ({.calling c} : Hands) := Multiset.mem_singleton_self _
  have holds : (Token.calling c).holds c.ticket = true := beq_self_eq_true _
  have fits : (Token.calling c).Fits (s.standing c.ticket) := inv.fits_of_mem (Multiset.mem_add.mpr (.inl hk))
  obtain ⟨made, failed, hphase⟩ := fits
  simp only [phase] at hphase
  obtain ⟨encodes, r, began, rfl, hbegan, rfl, listens⟩ := hphase
  obtain ⟨ended, -⟩ := inv.live (mem_estate (Multiset.mem_add.mpr (.inl hk))) holds
  obtain ⟨fate, found, mail⟩ := inv.find_of_listens listens held
  obtain ⟨timed, time⟩ := passed_deadlineFrom late
  have expired : account c.ticket (.expired c.ticket now :: s.journal) =
      { (s.standing c.ticket).account with fate := .expired r now } := by
    rw [account_cons_of_concerns (beq_self_eq_true _)]
    exact Account.told_expired fate
  have told : account c.ticket ([.removed c.ticket,
      .finished c.ticket (.error (.callTimedOut c.message.route limit)), .expired c.ticket now] ++ s.journal) =
      { (s.standing c.ticket).account with
        fate := .expired r now
        ends := [.finished c.ticket (.error (.callTimedOut c.message.route limit))] } := by
    change account c.ticket (_ :: _ :: _ :: s.journal) = _
    rw [account_cons_of_concerns (beq_self_eq_true _), account_cons_of_concerns (beq_self_eq_true _), expired]
    simp only [Account.told, Fate.settle, ended]
  have concludes : Concludes (.expired c.ticket now :: s.journal) c.ticket c.message
      (.error (.callTimedOut c.message.route limit)) := by
    refine .expired encodes ?_ r now limit ?_ timed rfl
    · rw [expired]
      exact failed
    · rw [expired]
  have finishes : Admissible setup (.expired c.ticket now :: s.journal)
      (.finished c.ticket (.error (.callTimedOut c.message.route limit))) := by
    refine ⟨?_, c.message, ?_, concludes⟩
    · rw [expired]
      exact ended
    · rw [expired]
      exact made
  have expires : Admissible setup s.journal (.expired c.ticket now) :=
    ⟨⟨r, fate⟩, .call c.message, limit, began, made, timed, hbegan, time⟩
  have unread : s.mail.lookup c.ticket = none := by
    rw [lookup_eq_head?_mailOf, show mailOf c.ticket s.mail = [] from mail]
    rfl
  -- The session found is the call's own and no reply is there, so the session is all that goes.
  have lost : (((s.note (.expired c.ticket now)).note
      (.finished c.ticket (.error (.callTimedOut c.message.route limit)))).strike r.session).unmail c.ticket =
      { s with
        table := s.table.erase r.session
        journal := .removed c.ticket :: .finished c.ticket (.error (.callTimedOut c.message.route limit)) ::
          .expired c.ticket now :: s.journal } := by
    rw [strike_of_some (s := (s.note _).note _) found]
    exact unmail_of_lookup unread
  rw [lost]
  refine inv.depart found [.removed c.ticket,
      .finished c.ticket (.error (.callTimedOut c.message.route limit)), .expired c.ticket now]
    rfl rfl rfl rfl rfl ?_ ⟨trivial, finishes, expires, inv.coherent⟩ (fun _ _ => rfl) (by simp) ?_ ?_ ?_ (by simp)
  · intro e he t ht
    have ht : c.ticket ≠ t := Ne.symm ht
    simp only [List.mem_cons, List.not_mem_nil, or_false] at he
    rcases he with rfl | rfl | rfl <;> simpa [Entry.concerns] using ht
  · change (Standing.mk (account c.ticket _) [] (s.standing c.ticket).mail).Sound
    rw [told, mail]
    exact ⟨rfl, rfl⟩
  · change Hands.holders c.ticket _ + (account c.ticket _).ends.length ≤ Hands.holders c.ticket _ + _
    rw [told]
    simp [Token.holds, Token.ticket]
  · intro k hk' holds'
    change k.holds c.ticket = true at holds'
    rw [inv.unheld (Nat.le_add_right_of_le (Hands.one_le_holders hk holds)) k hk'] at holds'
    cases holds'

/-- The time of a wait is over while its session is in the table. -/
theorem expireWait {w : Wait} {now deadline : Nat} (inv : Inv setup s ({.parcel, .watching w} + F))
    (held : s.table.holds w.pending.ticket = true) (begun : w.deadline = some deadline) (late : deadline ≤ now) :
    Inv setup (((s.note (.expired w.pending.ticket now)).strike w.pending.request.session).note
      (.delivered w.pending (w.pending.request.toPacket.faultReply (.waitTimedOut w.limit))))
      ({.parcel, .parcel} + F) := by
  have hk : Token.watching w ∈ ({.parcel, .watching w} : Hands) := by simp
  have holds : (Token.watching w).holds w.pending.ticket = true := beq_self_eq_true _
  have fits : (Token.watching w).Fits (s.standing w.pending.ticket) :=
    inv.fits_of_mem (Multiset.mem_add.mpr (.inl hk))
  obtain ⟨failed, time, ⟨m, made, timed⟩, listens⟩ := fits
  obtain ⟨ended, -⟩ := inv.live (mem_estate (Multiset.mem_add.mpr (.inl hk))) holds
  obtain ⟨fate, found, mail⟩ := inv.find_of_listens listens held
  rw [begun] at time
  obtain ⟨began, hbegan, rfl⟩ := Option.map_eq_some_iff.mp time.symm
  -- The session ended with its time; that it is taken out afterwards does not change how it ended.
  have expired : account w.pending.ticket (.removed w.pending.ticket :: .expired w.pending.ticket now :: s.journal) =
      { (s.standing w.pending.ticket).account with fate := .expired w.pending.request.toPacket now } := by
    rw [account_cons_of_concerns (beq_self_eq_true _), account_cons_of_concerns (beq_self_eq_true _)]
    change (Account.told (Account.told (s.standing w.pending.ticket).account _) _) = _
    rw [Account.told_expired fate]
    rfl
  have told : account w.pending.ticket ([.delivered w.pending
      (w.pending.request.toPacket.faultReply (.waitTimedOut w.limit)), .removed w.pending.ticket,
      .expired w.pending.ticket now] ++ s.journal) =
      { (s.standing w.pending.ticket).account with
        fate := .expired w.pending.request.toPacket now
        ends := [.delivered w.pending (w.pending.request.toPacket.faultReply (.waitTimedOut w.limit))] } := by
    change account w.pending.ticket (_ :: _ :: _ :: s.journal) = _
    rw [account_cons_of_concerns (beq_self_eq_true _), expired]
    simp only [Account.told, ended]
  have delivers : Admissible setup (.removed w.pending.ticket :: .expired w.pending.ticket now :: s.journal)
      (.delivered w.pending (w.pending.request.toPacket.faultReply (.waitTimedOut w.limit))) := by
    refine ⟨?_, m, ?_, ?_, ?_⟩
    · rw [expired]
      exact ended
    · rw [expired]
      exact made
    · rw [expired]
      rfl
    · rw [expired]
      exact ⟨w.limit, timed, rfl⟩
  have expires : Admissible setup s.journal (.expired w.pending.ticket now) :=
    ⟨⟨_, fate⟩, .async m w.pending.callbacks, w.limit, began, made, timed, hbegan, late⟩
  have lost : (s.note (.expired w.pending.ticket now)).strike w.pending.request.session =
      { s with
        table := s.table.erase w.pending.request.session
        journal := .removed w.pending.ticket :: .expired w.pending.ticket now :: s.journal } :=
    strike_of_some (s := s.note _) found
  rw [lost]
  refine inv.depart found [.delivered w.pending (w.pending.request.toPacket.faultReply (.waitTimedOut w.limit)),
      .removed w.pending.ticket, .expired w.pending.ticket now]
    rfl rfl rfl rfl rfl ?_ ⟨delivers, trivial, expires, inv.coherent⟩ (fun _ _ => rfl) (by simp [Token.holds])
    ?_ ?_ ?_ (by simp [Token.Fits])
  · intro e he t ht
    have ht : w.pending.ticket ≠ t := Ne.symm ht
    simp only [List.mem_cons, List.not_mem_nil, or_false] at he
    rcases he with rfl | rfl | rfl <;> simpa [Entry.concerns] using ht
  · change (Standing.mk (account w.pending.ticket _) [] (s.standing w.pending.ticket).mail).Sound
    rw [told, mail]
    exact ⟨rfl, rfl⟩
  · change Hands.holders w.pending.ticket _ + (account w.pending.ticket _).ends.length ≤
      Hands.holders w.pending.ticket _ + _
    rw [told]
    have := Hands.one_le_holders hk holds
    simp [Token.holds, Token.ticket]
  · intro k hk' holds'
    change k.holds w.pending.ticket = true at holds'
    rw [inv.unheld (Nat.le_add_right_of_le (Hands.one_le_holders hk holds)) k hk'] at holds'
    cases holds'

/-! ### The connection is closed -/

theorem mem_owing {sessions : List (UInt64 × Session)} {k : Token} :
    k ∈ owing sessions ↔ ∃ n pending, (n, Session.callback pending) ∈ sessions ∧ k = .owed pending := by
  unfold owing
  rw [Multiset.mem_coe, List.mem_map]
  constructor
  · rintro ⟨pending, h, rfl⟩
    obtain ⟨n, hmem⟩ := mem_pledges.mp h
    exact ⟨n, pending, hmem, rfl⟩
  · rintro ⟨n, pending, hmem, rfl⟩
    exact ⟨pending, mem_pledges.mpr ⟨n, hmem⟩, rfl⟩

theorem holders_owing (sessions : List (UInt64 × Session)) (t : Nat) :
    Hands.holders t (owing sessions) = (pledges (sessions.filter fun e => e.2.ticket == t)).length := by
  induction sessions with
  | nil => rfl
  | cons e rest ih =>
    obtain ⟨n, entry⟩ := e
    cases entry with
    | waiting ticket listening =>
      rw [owing_cons_waiting, ih]
      by_cases h : ticket = t <;> simp [Session.ticket, h, pledges, Session.pending?]
    | callback pending =>
      rw [owing_cons_callback, Hands.holders_cons, ih]
      by_cases h : pending.ticket = t <;>
        simp [Session.ticket, h, pledges, Session.pending?, Token.holds, Token.ticket]

/-- The account of a call once the connection is closed. -/
theorem account_closed : account t (.closed :: s.journal) =
    { (s.standing t).account with fate := (s.standing t).account.fate.settle .closed } :=
  account_cons_of_concerns rfl

/-- Closing ends the session of a call, if it has one. -/
theorem drifts_close (inv : Inv setup s H) (t : Nat) : (s.standing t).Drifts
    { account := account t (.closed :: s.journal), sessions := [], mail := (s.standing t).mail } := by
  have sound := inv.sound t
  unfold Standing.Sound at sound
  cases hfate : (s.standing t).account.fate with
  | awaiting r =>
    refine .closed r hfate ?_ rfl
    rw [account_closed, hfate]
    rfl
  | _ =>
    simp only [hfate] at sound
    refine .stay ?_ sound.1.symm rfl
    rw [account_closed, hfate]
    simp only [Fate.settle, ← hfate]

/-- Closing ends every session, and takes the callbacks out of the table. -/
theorem close (inv : Inv setup s H) :
    Inv setup { s with table := { entries := [], closed := true }, journal := .closed :: s.journal }
      (owing s.table.entries + H) := by
  refine ⟨List.nodup_nil, fun _ => ⟨rfl, List.mem_cons_self⟩, ?_, ?_, ?_, ?_, ⟨trivial, inv.coherent⟩⟩
  · intro t
    change (Standing.mk (account t (.closed :: s.journal)) [] (s.standing t).mail).Sound
    have sound := inv.sound t
    unfold Standing.Sound at sound ⊢
    rw [account_closed]
    cases hfate : (s.standing t).account.fate <;> simp only [hfate, Fate.settle] at sound ⊢
    · exact ⟨trivial, sound.2⟩
    · exact ⟨trivial, sound.2⟩
    · exact ⟨trivial, sound.2⟩
    · exact ⟨trivial, sound.2⟩
    · exact ⟨trivial, sound.2⟩
    · exact ⟨trivial, sound.2⟩
  · -- Callbacks that were in the table are in hand now, so their tickets are decided as often as before.
    intro t
    have before := inv.tally t
    have stakes : (Standing.mk (account t (.closed :: s.journal)) [] (s.standing t).mail).stakes =
        (s.standing t).account.ends.length := by
      unfold Standing.stakes
      rw [account_closed]
      simp [pledges]
    change (estate _ _).holders t +
      (Standing.mk (account t (.closed :: s.journal)) [] (s.standing t).mail).stakes ≤ _
    rw [estate_add, Hands.holders_add, holders_owing, stakes]
    unfold Standing.stakes at before
    change (pledges (s.standing t).sessions).length + (s.estate H).holders t + _ ≤ _
    rw [Nat.add_comm (pledges _).length, Nat.add_assoc]
    exact before
  · intro t ht
    change account t (.closed :: s.journal) = {}
    rw [account_closed, inv.fresh t ht]
    rfl
  · intro k hk
    rw [estate_add] at hk
    change k.Fits (Standing.mk (account k.ticket (.closed :: s.journal)) [] (s.standing k.ticket).mail)
    rcases Multiset.mem_add.mp hk with hk | hk
    · obtain ⟨n, pending, mem, rfl⟩ := mem_owing.mp hk
      obtain ⟨r, fate, -, -, -, rfl, m, made, patient⟩ := inv.found (inv.keyed.find_of_mem mem)
      refine ⟨⟨m, ?_, patient⟩, ?_⟩
      · change (account pending.ticket (.closed :: s.journal)).made = _
        rw [account_closed]
        exact made
      · change (account pending.ticket (.closed :: s.journal)).fate = _
        rw [account_closed]
        change Fate.settle _ (s.standing (Session.callback pending).ticket).account.fate = _
        rw [fate]
        rfl
    · exact (inv.fits k hk).drift (inv.drifts_close k.ticket)

/-! ### Waits are taken up -/

/-- Where nobody takes up a wait, its session is left to itself. -/
theorem forsake {m : Outbound} {pending : Pending} {r : Except Fault Unit}
    (inv : Inv setup s ({.promised m pending} + F)) :
    Inv setup (s.deafen pending.ticket) ({.answering pending.ticket r} + F) := by
  have hk : Token.promised m pending ∈ ({.promised m pending} : Hands) := Multiset.mem_singleton_self _
  have holds : (Token.promised m pending).holds pending.ticket = true := beq_self_eq_true _
  have fits : (Token.promised m pending).Fits (s.standing pending.ticket) :=
    inv.fits_of_mem (Multiset.mem_add.mpr (.inl hk))
  obtain ⟨made, failed, began, timed, listens⟩ := fits
  have standing : (s.deafen pending.ticket).standing pending.ticket =
      { account := (s.standing pending.ticket).account
        sessions := (s.standing pending.ticket).sessions.map fun e => (e.1, e.2.deafen pending.ticket)
        mail := [] } := by
    unfold Engine.standing
    congr 1
    · exact sessionsOf_deafen
    · exact mailOf_unmail.trans (if_pos rfl)
  refine inv.turn pending.ticket rfl rfl rfl ?_ ?_ ⟨[], rfl⟩ inv.coherent (inv.known_of_made made) ?_ ?_ ?_ ?_ ?_ ?_
  · unfold SessionTable.Keyed deafen
    dsimp only
    rw [List.map_map]
    exact inv.keyed
  · intro closed
    obtain ⟨shut, said⟩ := inv.shut closed
    refine ⟨?_, said⟩
    unfold deafen
    dsimp only
    rw [shut, List.map_nil]
  · intro t ht
    unfold Engine.standing
    congr 1
    · rw [sessionsOf_deafen]
      refine (List.map_congr_left fun e he => ?_).trans (List.map_id _)
      obtain ⟨-, hticket⟩ := SessionTable.mem_sessionsOf.mp he
      rw [Session.deafen_of_ne (by rw [hticket]; exact ht)]
      rfl
    · exact mailOf_unmail.trans (if_neg (Ne.symm ht))
  · simp [Token.holds]
  · rw [standing]
    have sound := (inv.sound pending.ticket).unmailed
    unfold Standing.Sound at sound ⊢
    cases hfate : (s.standing pending.ticket).account.fate with
    -- The session stays where it is; only whether someone listens changes.
    | awaiting request =>
      simp only [hfate] at sound ⊢
      obtain ⟨⟨entry, sessions, backs⟩, mail⟩ := sound
      refine ⟨⟨entry.deafen pending.ticket, by rw [sessions]; rfl, ?_⟩, mail⟩
      cases entry with
      | waiting ticket listening =>
        obtain ⟨how, hhow, waits, -⟩ := backs
        refine ⟨how, hhow, waits, fun _ => ⟨m, pending.callbacks, ?_⟩⟩
        exact Option.some.inj (hhow.symm.trans made)
      | callback p => exact backs
    | _ =>
      simp only [hfate] at sound ⊢
      exact ⟨by rw [sound.1]; rfl, sound.2⟩
  · rw [standing]
    unfold Standing.stakes
    dsimp only
    have : pledges ((s.standing pending.ticket).sessions.map fun e => (e.1, e.2.deafen pending.ticket)) =
        pledges (s.standing pending.ticket).sessions := pledges_deafen
    rw [this]
    simp [Token.holds]
  · intro k hk' holds'
    rw [inv.unheld (Nat.le_add_right_of_le (Hands.one_le_holders hk holds)) k hk'] at holds'
    cases holds'
  · simp [Token.Fits]

end Inv
end Engine
end Switchboard
