import Switchboard.Proofs.Engine.Invariant

/-! Moves that only add to the journal: calls are refused, waits begin, and calls end. -/

namespace Switchboard

/-- A call has not ended, and its callbacks are not in the table. -/
structure Standing.Live (st : Standing) : Prop where
  ends : st.account.ends = []
  pledges : pledges st.sessions = []

namespace Engine

variable {setup : Setup} {s s' : Engine} {t u : Nat} {H K F : Hands} {k : Token}

theorem mem_estate (h : k ∈ H) : k ∈ s.estate H := by
  unfold estate
  rw [Multiset.add_assoc]
  exact Multiset.mem_add.mpr (.inl h)

theorem calling_mem_estate {c : Call} (h : c ∈ s.calls) : .calling c ∈ s.estate H := by
  unfold estate
  simp [h]

theorem watching_mem_estate {w : Wait} (h : w ∈ s.waits) : .watching w ∈ s.estate H := by
  unfold estate
  simp [h]

theorem standing_of_not {e : Entry} (h : e.concerns t = false) : (s.note e).standing t = s.standing t := by
  change Standing.mk (account t (e :: s.journal)) _ _ = _
  rw [account_cons_of_not h]
  rfl

namespace Inv

theorem fits_of_mem (inv : Inv setup s H) (h : k ∈ H) : k.Fits (s.standing k.ticket) := inv.fits k (mem_estate h)

/-- A call that someone in hand decides is live. -/
theorem live (inv : Inv setup s H) (hk : k ∈ s.estate H) (h : k.holds t = true) : (s.standing t).Live := by
  have tally := inv.tally t
  have := Hands.one_le_holders hk h
  unfold Standing.stakes at tally
  constructor
  · rw [← List.length_eq_zero_iff]
    split at tally <;> omega
  · rw [← List.length_eq_zero_iff]
    split at tally <;> omega

/-- Entries about one ticket may be made where what is in hand allows them. -/
theorem tell {taken given : Hands} (inv : Inv setup s (taken + F)) (u : Nat) (es : List Entry)
    (known : u < s.tickets) (about : ∀ e ∈ es, ∀ t, t ≠ u → e.concerns t = false)
    (coherent : Coherent setup (es ++ s.journal))
    (fate : (account u (es ++ s.journal)).fate = (s.standing u).account.fate)
    (made : (account u (es ++ s.journal)).made = (s.standing u).account.made)
    (own : ∀ k ∈ given, ∀ t, k.holds t = true → t = u)
    (tally : Hands.holders u given + (account u (es ++ s.journal)).ends.length ≤
      Hands.holders u taken + (s.standing u).account.ends.length)
    (frame : ∀ k ∈ s.estate F, k.holds u = true → k.Fits (s.standing u) →
      k.Fits { s.standing u with account := account u (es ++ s.journal) })
    (fits : ∀ k ∈ given, (∀ st, k.Fits st) ∨ k.ticket = u ∧
      k.Fits { s.standing u with account := account u (es ++ s.journal) }) :
    Inv setup { s with journal := es ++ s.journal } (given + F) := by
  have standing : standing { s with journal := es ++ s.journal } u =
    { s.standing u with account := account u (es ++ s.journal) } := rfl
  refine inv.turn u rfl rfl rfl inv.keyed ?_ ⟨es, rfl⟩ coherent known ?_ own ?_ ?_ frame ?_
  · intro closed
    obtain ⟨shut, said⟩ := inv.shut closed
    exact ⟨shut, List.mem_append_right es said⟩
  · intro t ht
    change Standing.mk (account t (es ++ s.journal)) _ _ = _
    rw [account_append fun e he => about e he t ht]
    rfl
  · exact (inv.sound u).congr fate made rfl rfl
  · rw [standing]
    unfold Standing.stakes
    dsimp only
    omega
  · intro k hk
    rcases fits k hk with h | ⟨rfl, h⟩
    · exact h _
    · exact h

/-- Whoever decides how a call ends may say so. -/
theorem tell_of_holder {taken given : Hands} (inv : Inv setup s (taken + F)) {k : Token} (hk : k ∈ taken)
    (holds : k.holds u = true) (es : List Entry) (about : ∀ e ∈ es, ∀ t, t ≠ u → e.concerns t = false)
    (coherent : Coherent setup (es ++ s.journal))
    (fate : (account u (es ++ s.journal)).fate = (s.standing u).account.fate)
    (made : (account u (es ++ s.journal)).made = (s.standing u).account.made)
    (own : ∀ k ∈ given, ∀ t, k.holds t = true → t = u)
    (tally : Hands.holders u given + (account u (es ++ s.journal)).ends.length ≤ 1)
    (fits : ∀ k ∈ given, (∀ st, k.Fits st) ∨ k.ticket = u ∧
      k.Fits { s.standing u with account := account u (es ++ s.journal) }) :
    Inv setup { s with journal := es ++ s.journal } (given + F) := by
  have hestate : k ∈ s.estate (taken + F) := mem_estate (Multiset.mem_add.mpr (.inl hk))
  have one : 1 ≤ Hands.holders u taken := Hands.one_le_holders hk holds
  refine inv.tell u es (inv.known_of_holds hestate holds) about coherent fate made own (by omega) ?_ fits
  intro k' hk' h
  rw [inv.unheld (by omega) k' hk'] at h
  cases h

/-- Whoever decides how a call ends may make one entry about it. -/
theorem note_of_holder {taken given : Hands} (inv : Inv setup s (taken + F)) {k : Token} (hk : k ∈ taken)
    (holds : k.holds u = true) {e : Entry} (about : ∀ t, e.concerns t = (u == t))
    (admissible : Admissible setup s.journal e)
    (fate : ((s.standing u).account.told e).fate = (s.standing u).account.fate)
    (made : ((s.standing u).account.told e).made = (s.standing u).account.made)
    (own : ∀ k ∈ given, ∀ t, k.holds t = true → t = u)
    (tally : Hands.holders u given + ((s.standing u).account.told e).ends.length ≤ 1)
    (fits : ∀ k ∈ given, (∀ st, k.Fits st) ∨ k.ticket = u ∧
      k.Fits { s.standing u with account := (s.standing u).account.told e }) :
    Inv setup (s.note e) (given + F) := by
  have told : account u ([e] ++ s.journal) = (s.standing u).account.told e :=
    account_cons_of_concerns (by rw [about, beq_self_eq_true])
  refine inv.tell_of_holder hk holds [e] ?_ ⟨admissible, inv.coherent⟩ (told ▸ fate) (told ▸ made) own
    (told ▸ tally) ?_
  · intro e' he' t ht
    rw [List.mem_singleton.mp he', about]
    simpa using Ne.symm ht
  · rw [told]
    exact fits

/-! ### Calls -/

theorem refuseCall {c : Call} {fault : Fault} (inv : Inv setup s ({.calling c} + F)) (phase : c.phase = .created)
    (reason : c.message.body = .error fault ∨
      c.message.Encodes ∧ s.table.closed = true ∧ fault = .notSent c.message.route) :
    Inv setup (s.note (.finished c.ticket (.error fault))) (0 + F) := by
  have hk : Token.calling c ∈ ({.calling c} : Hands) := Multiset.mem_singleton_self _
  have holds : (Token.calling c).holds c.ticket = true := beq_self_eq_true _
  obtain ⟨made, -, hphase⟩ := inv.fits_of_mem (Multiset.mem_add.mpr (.inl hk))
  simp only [phase] at hphase
  obtain ⟨ended, -⟩ := inv.live (mem_estate (Multiset.mem_add.mpr (.inl hk))) holds
  have concludes : Concludes s.journal c.ticket c.message (.error fault) := by
    rcases reason with body | ⟨encodes, closed, rfl⟩
    · exact .unencodable fault body hphase.1 rfl
    · exact .refused encodes (inv.shut closed).2 hphase.1 rfl
  refine inv.note_of_holder hk holds (fun _ => rfl) ⟨ended, c.message, made, concludes⟩ rfl rfl (by simp) ?_ (by simp)
  simp [Account.told, ended]

theorem cancelEarly {c : Call} (inv : Inv setup s ({.calling c} + F)) :
    Inv setup (s.note (.cancelled c.ticket)) (0 + F) := by
  have hk : Token.calling c ∈ ({.calling c} : Hands) := Multiset.mem_singleton_self _
  have holds : (Token.calling c).holds c.ticket = true := beq_self_eq_true _
  obtain ⟨made, -, -⟩ := inv.fits_of_mem (Multiset.mem_add.mpr (.inl hk))
  obtain ⟨ended, -⟩ := inv.live (mem_estate (Multiset.mem_add.mpr (.inl hk))) holds
  refine inv.note_of_holder hk holds (fun _ => rfl) ⟨ended, c.message, made⟩ rfl rfl (by simp) ?_ (by simp)
  simp [Account.told, ended]

theorem beginCall {c : Call} {session : UInt64} (now : Nat) (inv : Inv setup s ({.sending c session} + F)) :
    Inv setup (s.note (.began c.ticket now))
      ({.calling { c with phase := .waiting session (deadlineFrom now c.message) }} + F) := by
  have hk : Token.sending c session ∈ ({.sending c session} : Hands) := Multiset.mem_singleton_self _
  have holds : (Token.sending c session).holds c.ticket = true := beq_self_eq_true _
  obtain ⟨made, failed, began, encodes, r, number, listens⟩ := inv.fits_of_mem (Multiset.mem_add.mpr (.inl hk))
  obtain ⟨ended, -⟩ := inv.live (mem_estate (Multiset.mem_add.mpr (.inl hk))) holds
  refine inv.note_of_holder hk holds (fun _ => rfl) began rfl rfl ?_ ?_ ?_
  · intro k hk t ht
    rw [Multiset.mem_singleton.mp hk] at ht
    exact (beq_iff_eq.mp ht).symm
  · simp [Account.told, ended, Token.holds, Token.ticket]
  · intro k hk
    rw [Multiset.mem_singleton.mp hk]
    refine .inr ⟨rfl, made, failed, encodes, r, now, number, ?_, rfl, listens.congr rfl rfl rfl⟩
    change (s.standing c.ticket).account.began.or (some now) = some now
    rw [show (s.standing c.ticket).account.began = none from began]
    rfl

theorem endCall {c : Call} {session : UInt64} {result : Except Fault Bytes}
    (inv : Inv setup s ({.ending c session result} + F)) :
    Inv setup (s.note (.finished c.ticket result)) (0 + F) := by
  have hk : Token.ending c session result ∈ ({.ending c session result} : Hands) := Multiset.mem_singleton_self _
  have holds : (Token.ending c session result).holds c.ticket = true := beq_self_eq_true _
  obtain ⟨made, failed, encodes, began, -, decides, -⟩ := inv.fits_of_mem (Multiset.mem_add.mpr (.inl hk))
  obtain ⟨ended, -⟩ := inv.live (mem_estate (Multiset.mem_add.mpr (.inl hk))) holds
  refine inv.note_of_holder hk holds (fun _ => rfl)
    ⟨ended, c.message, made, .decided encodes failed began decides⟩ rfl rfl (by simp) ?_ (by simp)
  simp [Account.told, ended]

/-- The request of a call could not be written, and the call comes back with this fault. -/
theorem failCall {c : Call} {session : UInt64} (fault : Fault) (inv : Inv setup s ({.sending c session} + F)) :
    Inv setup ((s.note (.unsent c.ticket fault)).note (.finished c.ticket (.error fault))) (0 + F) := by
  have hk : Token.sending c session ∈ ({.sending c session} : Hands) := Multiset.mem_singleton_self _
  have holds : (Token.sending c session).holds c.ticket = true := beq_self_eq_true _
  obtain ⟨made, failed, -, encodes, r, -, listens⟩ := inv.fits_of_mem (Multiset.mem_add.mpr (.inl hk))
  obtain ⟨ended, -⟩ := inv.live (mem_estate (Multiset.mem_add.mpr (.inl hk))) holds
  have unsent : account c.ticket (.unsent c.ticket fault :: s.journal) =
      (s.standing c.ticket).account.told (.unsent c.ticket fault) :=
    account_cons_of_concerns (beq_self_eq_true _)
  have told : account c.ticket
      ([.finished c.ticket (.error fault), .unsent c.ticket fault] ++ s.journal) =
      ((s.standing c.ticket).account.told (.unsent c.ticket fault)).told (.finished c.ticket (.error fault)) := by
    rw [← unsent]
    exact account_cons_of_concerns (beq_self_eq_true _)
  -- The fault is told before the result, so the result follows from what the account says by then.
  have concludes : Concludes (.unsent c.ticket fault :: s.journal) c.ticket c.message (.error fault) := by
    refine .unsent fault encodes ?_ ?_ rfl
    · rw [unsent]
      change (s.standing c.ticket).account.failed.or (some fault) = some fault
      rw [show (s.standing c.ticket).account.failed = none from failed]
      rfl
    · rw [unsent]
      exact Option.isSome_iff_exists.mpr ⟨r, listens.request?⟩
  have admissible : Admissible setup (.unsent c.ticket fault :: s.journal) (.finished c.ticket (.error fault)) := by
    refine ⟨?_, c.message, ?_, concludes⟩
    · rw [unsent]
      exact ended
    · rw [unsent]
      exact made
  refine inv.tell_of_holder hk holds [.finished c.ticket (.error fault), .unsent c.ticket fault] ?_
    ⟨admissible, trivial, inv.coherent⟩ (by rw [told]; rfl) (by rw [told]; rfl) (by simp) ?_ (by simp)
  · intro e he t ht
    rcases List.mem_cons.mp he with rfl | he
    · simpa [Entry.concerns] using Ne.symm ht
    · rw [List.mem_singleton.mp he]
      simpa [Entry.concerns] using Ne.symm ht
  · rw [told]
    simp [Account.told, ended]

/-! ### Callbacks -/

/-- A wait in progress begins with its first poll. -/
theorem beginWait {w : Wait} (now : Nat) (inv : Inv setup s ({.watching w} + F)) (fresh : w.deadline = none) :
    Inv setup (s.note (.began w.pending.ticket now))
      ({.watching { w with deadline := some (now + w.limit.nanoseconds) }} + F) := by
  have hk : Token.watching w ∈ ({.watching w} : Hands) := Multiset.mem_singleton_self _
  have holds : (Token.watching w).holds w.pending.ticket = true := beq_self_eq_true _
  obtain ⟨failed, deadline, made, listens⟩ := inv.fits_of_mem (Multiset.mem_add.mpr (.inl hk))
  obtain ⟨ended, -⟩ := inv.live (mem_estate (Multiset.mem_add.mpr (.inl hk))) holds
  -- A wait has a time at which it ends once it has begun, so this one has not.
  have began : (s.standing w.pending.ticket).account.began = none := by
    rw [fresh] at deadline
    exact Option.map_eq_none_iff.mp deadline.symm
  refine inv.note_of_holder hk holds (fun _ => rfl) began rfl rfl ?_ ?_ ?_
  · intro k hk t ht
    rw [Multiset.mem_singleton.mp hk] at ht
    exact (beq_iff_eq.mp ht).symm
  · simp [Account.told, ended, Token.holds, Token.ticket]
  · intro k hk
    rw [Multiset.mem_singleton.mp hk]
    refine .inr ⟨rfl, failed, ?_, made, listens.congr rfl rfl rfl⟩
    change _ = ((s.standing w.pending.ticket).account.began.or (some now)).map _
    rw [began]
    rfl

/-- Whoever holds callbacks whose session ended may run them with what came of it. -/
theorem deliver {pending : Pending} {p : Packet} {k : Token} (inv : Inv setup s ({.parcel, k} + F))
    (holds : k.holds pending.ticket = true)
    (delivers : (s.standing pending.ticket).account.Delivers pending p) :
    Inv setup (s.note (.delivered pending p)) ({.parcel, .parcel} + F) := by
  have hk : k ∈ ({.parcel, k} : Hands) := by simp
  obtain ⟨ended, -⟩ := inv.live (mem_estate (Multiset.mem_add.mpr (.inl hk))) holds
  refine inv.note_of_holder hk holds (fun _ => rfl) ⟨ended, delivers⟩ rfl rfl ?_ ?_ ?_
  · simp [Token.holds]
  · simp [Account.told, ended, Token.holds]
  · simp [Token.Fits]

theorem settle {pending : Pending} (inv : Inv setup s ({.parcel, .owed pending} + F)) :
    Inv setup (s.note (.delivered pending (pending.request.toPacket.faultReply .closedWaiting)))
      ({.parcel, .parcel} + F) := by
  obtain ⟨⟨m, made, -⟩, fate⟩ := inv.fits_of_mem (k := .owed pending) (by simp)
  refine inv.deliver (beq_self_eq_true _) ⟨m, made, ?_, ?_⟩
  · exact (congrArg Fate.request? fate).trans rfl
  · rw [show (s.standing pending.ticket).account.fate = _ from fate]

/-- Whoever waits and finds neither a reply nor the session is told that the connection was closed. -/
theorem bereaveWait {w : Wait} (inv : Inv setup s ({.parcel, .watching w} + F))
    (missing : s.mail.lookup w.pending.ticket = none) (gone : s.table.holds w.pending.ticket = false) :
    Inv setup (s.note (.delivered w.pending (w.pending.request.toPacket.faultReply .closedWaiting)))
      ({.parcel, .parcel} + F) := by
  obtain ⟨-, -, ⟨m, made, -⟩, listens⟩ := inv.fits_of_mem (k := .watching w) (by simp)
  refine inv.deliver (beq_self_eq_true _) ⟨m, made, listens.request?, ?_⟩
  rcases listens.bereft (mail_eq_nil missing) (sessions_eq_nil gone) with fate | fate
  · rw [show (s.standing w.pending.ticket).account.fate = _ from fate]
  · rw [show (s.standing w.pending.ticket).account.fate = _ from fate]

/-- A request that could not be written is noted by whoever made the call without a time limit. -/
theorem unsent {m : Outbound} {pending : Pending} (fault : Fault) {given : Hands}
    (inv : Inv setup s ({.placed m pending} + F)) (free : ∀ k ∈ given, ∀ t, k.holds t = false)
    (fits : ∀ k ∈ given, ∀ st, k.Fits st) :
    Inv setup (s.note (.unsent pending.ticket fault)) (given + F) := by
  obtain ⟨made, patient, request⟩ := inv.fits_of_mem (k := .placed m pending) (by simp)
  have told : account pending.ticket ([.unsent pending.ticket fault] ++ s.journal) =
      (s.standing pending.ticket).account.told (.unsent pending.ticket fault) :=
    account_cons_of_concerns (beq_self_eq_true _)
  refine inv.tell pending.ticket [.unsent pending.ticket fault] (inv.known_of_made made) ?_
    ⟨trivial, inv.coherent⟩ (by rw [told]; rfl) (by rw [told]; rfl) ?_ ?_ ?_ ?_
  · intro e he t ht
    rw [List.mem_singleton.mp he]
    simpa [Entry.concerns] using Ne.symm ht
  · intro k hk t ht
    rw [free k hk t] at ht
    cases ht
  · rw [Hands.holders_eq_zero fun k hk => free k hk _, told]
    simp [Account.told]
  · -- A reply that came first may have someone run the callbacks already, who looks at nothing that changes here.
    intro k _ hk fits
    have registered : (s.standing pending.ticket).account.fate ≠ .unregistered := by
      intro h
      have : (s.standing pending.ticket).account.fate.request? = some _ := request
      rw [h] at this
      cases this
    exact fits.of_patient hk made patient registered (by rw [told]; rfl) (by rw [told]; rfl)
  · exact fun k hk => .inl (fits k hk)

/-- Callbacks with a time limit are given up when their request could not be written. -/
theorem unsentWait {m : Outbound} {pending : Pending} (fault : Fault) {r : Except Fault Unit}
    (inv : Inv setup s ({.promised m pending} + F)) :
    Inv setup (s.note (.unsent pending.ticket fault)) ({.parcel, .answering pending.ticket r} + F) := by
  have hk : Token.promised m pending ∈ ({.promised m pending} : Hands) := Multiset.mem_singleton_self _
  have holds : (Token.promised m pending).holds pending.ticket = true := beq_self_eq_true _
  obtain ⟨ended, -⟩ := inv.live (mem_estate (Multiset.mem_add.mpr (.inl hk))) holds
  refine inv.note_of_holder hk holds (fun _ => rfl) trivial rfl rfl ?_ ?_ ?_
  · simp [Token.holds]
  · simp [Account.told, ended, Token.holds]
  · simp [Token.Fits]

/-! ### Moves that change no standing -/

/-- An entry that is about no call may be made at any time, if it is admissible. -/
theorem note {e : Entry} (inv : Inv setup s H) (about : ∀ t, e.concerns t = false)
    (admissible : Admissible setup s.journal e) : Inv setup (s.note e) H := by
  have inv' : Inv setup s (0 + H) := (Multiset.zero_add H).symm ▸ inv
  rw [← Multiset.zero_add H]
  refine inv'.still rfl rfl rfl inv.keyed ?_ ⟨admissible, inv.coherent⟩ (fun t => standing_of_not (about t))
    (fun _ => Nat.le_refl _) (by simp)
  intro closed
  obtain ⟨shut, said⟩ := inv.shut closed
  exact ⟨shut, List.mem_cons_of_mem e said⟩

theorem answer {t : Nat} {r : Except Fault Unit} (inv : Inv setup s ({.answering t r} + F)) :
    Inv setup (s.note (.returned t r)) (0 + F) := by
  have inv' : Inv setup s (0 + F) := inv.still rfl rfl rfl inv.keyed inv.shut inv.coherent (fun _ => rfl)
    (by simp) (by simp)
  exact inv'.note (fun _ => rfl) trivial

theorem refuse {t : Nat} {m : Outbound} {callbacks : List Program} {r : Except Fault Unit}
    (inv : Inv setup s ({.asked t m callbacks} + F)) : Inv setup s ({.answering t r} + F) :=
  inv.still rfl rfl rfl inv.keyed inv.shut inv.coherent (fun _ => rfl) (by simp [Token.holds]) (by simp [Token.Fits])

theorem accept {m : Outbound} {pending : Pending} {r : Except Fault Unit}
    (inv : Inv setup s ({.placed m pending} + F)) : Inv setup s ({.answering pending.ticket r} + F) :=
  inv.still rfl rfl rfl inv.keyed inv.shut inv.coherent (fun _ => rfl) (by simp [Token.holds]) (by simp [Token.Fits])

/-- A caller that finds neither a reply nor its session is told that the connection was closed. -/
theorem bereave {c : Call} {session : UInt64} {deadline : Option (Nat × Duration)}
    (inv : Inv setup s ({.calling c} + F)) (phase : c.phase = .waiting session deadline)
    (missing : s.mail.lookup c.ticket = none) (gone : s.table.holds c.ticket = false) :
    Inv setup s ({.ending c session (.error (.notAnswered c.message.route))} + F) := by
  obtain ⟨made, failed, hphase⟩ := inv.fits_of_mem (k := .calling c) (by simp)
  simp only [phase] at hphase
  obtain ⟨encodes, r, now, number, began, -, listens⟩ := hphase
  have mail := mail_eq_nil missing
  refine inv.still rfl rfl rfl inv.keyed inv.shut inv.coherent (fun _ => rfl) (by simp [Token.holds, Token.ticket]) ?_
  intro k hk
  rw [Multiset.mem_singleton.mp hk]
  refine ⟨made, failed, encodes, Option.isSome_iff_exists.mpr ⟨now, began⟩, mail, ?_, r, listens.request?, number⟩
  change (s.standing c.ticket).account.fate.Decides _ _
  rcases listens.bereft mail (sessions_eq_nil gone) with fate | fate
  · rw [show (s.standing c.ticket).account.fate = _ from fate]
    rfl
  · rw [show (s.standing c.ticket).account.fate = _ from fate]
    rfl

end Inv
end Engine
end Switchboard
