import Switchboard.Proofs.Engine.Finality
import Switchboard.Proofs.Engine.Reachable
import Switchboard.Proofs.Engine.Steady

/-! Connections with work under way, what comes later, and when a thing done with a connection does not come
    to its end: it lies too deep, or the numbers are used up. -/

namespace Switchboard
namespace Engine

variable {setup : Setup} {shared : Bool} {s t u : Engine} {H K : Hands}

/-! ### Between two moves -/

namespace Reachable

theorem tidy (run : Reachable setup shared s) (few : s.issuer.drawn ≤ numbers) :
    ∀ t, (account t s.journal).Tidy t := by
  induction run with
  | start => exact fun t => tidy_of_unregistered rfl
  | act before depth a done ih =>
    have m := act_moves done 0
    have few' := m.drawn.trans few
    exact m.tidy before.inv (before.numbered few') few (ih few')
  | around _ line hosted ih => exact ih few
  | others _ issuer contexts _ drawn ih => exact ih (drawn.trans few)

theorem sealed (run : Reachable setup shared s) : s.Sealed := by
  induction run with
  | start => exact ⟨(fun h => nomatch h), fun heq => by simp at heq⟩
  | act _ depth a done ih => exact (act_moves done 0).sealed ih
  | around _ line hosted ih => exact ⟨ih.shut, ih.hushed⟩
  | others _ issuer contexts _ _ ih => exact ⟨ih.shut, ih.hushed⟩

end Reachable

/-- A connection in the middle of the work that is done with it, and what that work holds. -/
def Underway (setup : Setup) (shared : Bool) (s : Engine) (H : Hands) : Prop :=
  ∃ start, Reachable setup shared start ∧ Moves setup start 0 s H

theorem Reachable.underway (run : Reachable setup shared s) : Underway setup shared s 0 := ⟨s, run, .refl⟩

namespace Underway

theorem moves (run : Underway setup shared s H) (m : Moves setup s H t K) : Underway setup shared t K := by
  obtain ⟨start, reached, before⟩ := run
  exact ⟨start, reached, before.trans m⟩

theorem inv (run : Underway setup shared s H) : Inv setup s H := by
  obtain ⟨start, reached, m⟩ := run
  exact m.inv reached.inv

theorem attended (run : Underway setup shared s H) : Attended s H := by
  obtain ⟨start, reached, m⟩ := run
  exact m.attended reached.inv reached.attended

theorem sealed (run : Underway setup shared s H) : s.Sealed := by
  obtain ⟨start, reached, m⟩ := run
  exact m.sealed reached.sealed

section

variable (run : Underway setup shared s H) (few : s.issuer.drawn ≤ numbers)
include run few

theorem numbered : Numbered s := by
  obtain ⟨start, reached, m⟩ := run
  exact m.numbered reached.inv (reached.numbered (m.drawn.trans few)) few

theorem tidy : ∀ t, (account t s.journal).Tidy t := by
  obtain ⟨start, reached, m⟩ := run
  have few' := m.drawn.trans few
  exact m.tidy reached.inv (reached.numbered few') few (reached.tidy few')

/-- Every session was registered under a number drawn for it. -/
theorem orderly : s.Orderly False where
  keyed := run.inv.keyed
  drawn := by
    rintro ⟨n, entry⟩ mem
    obtain ⟨r, fate, rfl, -⟩ := run.inv.found (run.inv.keyed.find_of_mem mem)
    exact (run.numbered few).issued (congrArg Fate.request? fate)
  calm := False.elim

end

end Underway

/-! ### Later -/

/-- One state of a connection comes after another: there were moves between them, or what is around the
    connection changed. -/
inductive Later (setup : Setup) : Engine → Engine → Prop where
  | moves {s t : Engine} {H K : Hands} (m : Moves setup s H t K) : Later setup s t
  | around (s : Engine) (line : Line) (hosted : Bool) : Later setup s { s with line, hosted }
  | others (s : Engine) (issuer : Issuer) (contexts : ContextPool) (drawn : s.issuer.drawn ≤ issuer.drawn) :
    Later setup s { s with issuer, contexts }
  | trans {s t u : Engine} (first : Later setup s t) (second : Later setup t u) : Later setup s u

theorem Later.drawn (later : Later setup s t) : s.issuer.drawn ≤ t.issuer.drawn := by
  induction later with
  | moves m => exact m.drawn
  | around => exact Nat.le_refl _
  | others _ _ _ drawn => exact drawn
  | trans _ _ first second => exact first.trans second

/-! ### Everything that can be done -/

/-- Calls and waits stay in progress, but for those with some tickets. -/
structure Spares (apart : Nat → Prop) (s t : Engine) : Prop where
  calls : ∀ c ∈ s.calls, ¬apart c.ticket → c ∈ t.calls
  waits : ∀ w ∈ s.waits, ¬apart w.pending.ticket → w ∈ t.waits
  orderly : t.Orderly False

/-- Work that stops short only when it has to, and leaves other calls and waits in progress. -/
def Sure {α : Type} (apart : Nat → Prop) (m : EngineM α) : Prop :=
  ∀ s : Engine, s.Orderly False → Ends Forced m s fun _ t => Spares apart s t

section

variable {α β : Type} {apart : Nat → Prop}

theorem Spares.trans (first : Spares apart s t) (second : Spares apart t u) : Spares apart s u where
  calls c h other := second.calls c (first.calls c h other) other
  waits w h other := second.waits w (first.waits w h other) other
  orderly := second.orderly

theorem Steady.spares {d d' : Due} (steady : Steady False s d t d') : Spares apart s t where
  calls _ h _ := steady.calls ▸ h
  waits _ h _ := steady.waits.subset h
  orderly := steady.orderly

theorem Keeps.sure {m : EngineM α} {d : Due} {d' : α → Due} (keeps : Keeps Forced False m d d') : Sure apart m :=
  fun s orderly => (keeps s orderly).mono fun _ _ => Steady.spares

theorem Sure.bind {m : EngineM α} {f : α → EngineM β} (first : Sure apart m) (rest : ∀ a, Sure apart (f a)) :
    Sure apart (m >>= f) := fun s orderly =>
  (first s orderly).bind fun a t mid => (rest a t mid.orderly).mono fun _ _ => mid.trans

theorem Sure.map {m : EngineM α} (f : α → β) (sure : Sure apart m) : Sure apart (f <$> m) :=
  sure.bind fun a => (Keeps.pure (a := f a) (d := {})).sure

theorem pure_sure (a : α) : Sure apart (pure a) := (Keeps.pure (d := {})).sure

theorem get_sure : Sure apart get := (Keeps.get (d := {})).sure

theorem record_sure (e : Entry) : Sure apart (record e) := (record_keeps (d := {}) e).sure

theorem putParcel_sure (p : Parcel) : Sure apart (putParcel p) := (putParcel_keeps (d := {}) p).sure

theorem discard_sure (n : UInt64) : Sure apart (discard n) := (discard_keeps (d := {}) id n).sure

theorem takeMail_sure (n : Nat) : Sure apart (takeMail n) := (takeMail_keeps (d := {}) id n).sure

theorem keepCall_sure (c : Call) : Sure apart (keepCall c) := fun s orderly =>
  .of_eq (t := { s with calls := s.calls ++ [c] }) rfl
    ⟨fun _ h _ => List.mem_append_left _ h, fun _ h _ => h, orderly.congr rfl (Nat.le_refl _)⟩

theorem keepWait_sure (w : Wait) : Sure apart (keepWait w) := fun s orderly =>
  .of_eq (t := { s with waits := s.waits ++ [w] }) rfl
    ⟨fun _ h _ => h, fun _ h _ => List.mem_append_left _ h, orderly.congr rfl (Nat.le_refl _)⟩

theorem takeCall_sure {ticket : Nat} (own : apart ticket) : Sure apart (takeCall ticket) := fun s orderly =>
  .of_eq (t := { s with calls := s.calls.filter fun c => c.ticket != ticket }) rfl
    ⟨fun _ h other => List.mem_filter.mpr ⟨h, bne_iff_ne.mpr fun same => other (same ▸ own)⟩, fun _ h _ => h,
      orderly.congr rfl (Nat.le_refl _)⟩

theorem takeWait_sure {ticket : Nat} (own : apart ticket) : Sure apart (takeWait ticket) := fun s orderly =>
  .of_eq (t := { s with waits := s.waits.filter fun w => w.pending.ticket != ticket }) rfl
    ⟨fun _ h _ => h, fun _ h other => List.mem_filter.mpr ⟨h, bne_iff_ne.mpr fun same => other (same ▸ own)⟩,
      orderly.congr rfl (Nat.le_refl _)⟩

theorem startCall_sure (m : Outbound) : Sure apart (startCall m) := fun s orderly =>
  .of_eq (t := { s with
    tickets := s.tickets + 1, journal := .called s.tickets m :: s.journal
    calls := s.calls ++ [{ ticket := s.tickets, message := m }] }) rfl
    ⟨fun _ h _ => List.mem_append_left _ h, fun _ h _ => h, orderly.congr rfl (Nat.le_refl _)⟩

theorem finish_sure (ticket : Nat) (result : Except Fault Bytes) : Sure apart (finish ticket result) :=
  (record_sure _).bind fun _ => pure_sure _

theorem finishSession_sure (ticket : Nat) (session : UInt64) (result : Except Fault Bytes) :
    Sure apart (finishSession ticket session result) :=
  (finish_sure ticket result).bind fun r =>
    (discard_sure session).bind fun _ => (takeMail_sure ticket).bind fun _ => pure_sure r

theorem awaitReply_sure (now : Nat) (c : Call) (session : UInt64) (deadline : Option (Nat × Duration)) :
    Sure apart (awaitReply now c session deadline) := by
  refine (takeMail_sure c.ticket).bind fun reply => ?_
  rcases reply with _ | p
  · refine get_sure.bind fun s => ?_
    split
    · exact finishSession_sure _ _ _
    · rcases passed now deadline with _ | limit
      · exact (keepCall_sure _).bind fun _ => pure_sure _
      · exact (record_sure _).bind fun _ => finishSession_sure _ _ _
  · exact (putParcel_sure p).bind fun _ => finishSession_sure _ _ _

theorem cancelCall_sure {ticket : Nat} (own : apart ticket) : Sure apart (cancelCall ticket) := by
  refine (takeCall_sure own).bind fun found => ?_
  rcases found with _ | c
  · exact pure_sure _
  refine (record_sure _).bind fun _ => ?_
  rcases c.phase with _ | ⟨session, deadline⟩
  · exact pure_sure _
  · exact (discard_sure session).bind fun _ => (takeMail_sure ticket).bind fun _ => pure_sure _

end

section

variable {inner : Inner} {apart : Nat → Prop} (steady : inner.Steady Forced False setup)
include steady

theorem sendCall_sure (now : Nat) (c : Call) : Sure apart (sendCall setup inner now c) := by
  intro s orderly
  refine (issue_ends orderly .request c.message).bind fun p t ⟨fresh, issued⟩ => ?_
  have taken : Spares apart s t := issued ▸
    ⟨fun _ h _ => h, fun _ h _ => h, orderly.congr rfl (Nat.le_succ _)⟩
  refine Ends.mono ?_ fun _ _ => taken.trans
  rcases hload : p.load (c.message.body.map .value) with ⟨q, fault | _⟩
  · exact ((putParcel_sure q).bind fun _ => finish_sure _ _) t taken.orderly
  -- Loading does not touch the number that was drawn.
  have numbered : Fresh t q.toPacket.session := (Parcel.load_eq_ok hload).2 ▸ fresh
  refine (numbered.register (fun _ _ used => used) id taken.orderly _).bind fun r u registered => ?_
  rcases registered with ⟨rfl, rfl⟩ | ⟨rfl, rfl, enrolled⟩
  · exact ((putParcel_sure q).bind fun _ => finish_sure _ _) _ taken.orderly
  have placed : Spares apart t (t.enroll (.waiting c.ticket true) q.toPacket) :=
    ⟨fun _ h _ => h, fun _ h _ => h, enrolled⟩
  refine Ends.mono (Sure.bind (send_keeps (d := {}) steady q).sure (fun ⟨q', result⟩ => ?_) _ enrolled)
    fun _ _ => placed.trans
  refine (putParcel_sure q').bind fun _ => ?_
  rcases result with fault | _
  · exact (record_sure _).bind fun _ => finishSession_sure _ _ _
  · exact (record_sure _).bind fun _ => awaitReply_sure _ _ _ _

theorem pollCall_sure (now : Nat) {ticket : Nat} (own : apart ticket) :
    Sure apart (pollCall setup inner now ticket) := by
  refine (takeCall_sure own).bind fun found => ?_
  rcases found with _ | c
  · exact pure_sure _
  dsimp only
  rcases c.phase with _ | ⟨session, deadline⟩
  · exact sendCall_sure steady now c
  · exact awaitReply_sure _ _ _ _

theorem deliver_sure (pending : Pending) (p : Parcel) : Sure apart (deliver setup inner pending p) :=
  (deliver_keeps (d := {}) steady False.elim p).sure

theorem pollWait_sure (now : Nat) {ticket : Nat} (own : apart ticket) :
    Sure apart (pollWait setup inner now ticket) := by
  refine (takeWait_sure own).bind fun found => ?_
  rcases found with _ | w
  · exact pure_sure _
  have began : Sure apart (beginWait now w) := by
    unfold beginWait
    rcases w.deadline with _ | deadline
    · exact (record_sure _).bind fun _ => pure_sure _
    · exact pure_sure _
  have synthesized : ∀ request fault, Sure apart (synthesize request fault) := fun request fault =>
    (synthesize_keeps (d := {}) request fault).sure
  refine began.bind fun deadline => (takeMail_sure ticket).bind fun reply => ?_
  rcases reply with _ | p
  · refine get_sure.bind fun s => ?_
    split
    · exact (synthesized _ _).bind fun q => deliver_sure steady _ q
    · split
      · refine (record_sure _).bind fun _ => (discard_sure _).bind fun _ => ?_
        exact (synthesized _ _).bind fun q => deliver_sure steady _ q
      · exact keepWait_sure _
  · exact deliver_sure steady _ p

end

/-- Something done with a connection turns to the call or wait with a ticket. -/
def Act.turnsTo : Act → Nat → Prop
  | .pollCall _ t, ticket | .cancelCall t, ticket | .pollWait _ t, ticket => ticket = t
  | _, _ => False

theorem nested_forced (setup : Setup) (depth : Nat) : (nested setup depth).Steady Forced False setup :=
  nested_steady False.elim trivial (fun _ _ _ used => used) depth

theorem act_sure (setup : Setup) (depth : Nat) (a : Act) : Sure a.turnsTo (act setup depth a) := by
  have steady := nested_forced setup depth
  cases a with
  | receive data => exact (receiveWith_keeps (d := {}) steady data).sure.map _
  | notify m => exact (notify_keeps (d := {}) steady m).sure.map _
  | callAsync m callbacks => exact (callAsync_keeps (d := {}) id steady m callbacks).sure.map _
  | startCall m => exact (startCall_sure m).map _
  | pollCall now ticket =>
    have polled : Sure (Act.pollCall now ticket).turnsTo (pollCall setup (nested setup depth) now ticket) :=
      pollCall_sure steady now rfl
    exact polled.map _
  | cancelCall ticket =>
    have cancelled : Sure (Act.cancelCall ticket).turnsTo (cancelCall ticket) := cancelCall_sure rfl
    exact cancelled.bind fun _ => pure_sure _
  | pollWait now ticket =>
    have polled : Sure (Act.pollWait now ticket).turnsTo (pollWait setup (nested setup depth) now ticket) :=
      pollWait_sure steady now rfl
    exact polled.bind fun _ => pure_sure _
  | nextSession =>
    exact fun s orderly => .of_eq (t := { s with issuer := s.issuer.nextSession.2 }) rfl
      ⟨fun _ h _ => h, fun _ h _ => h, orderly.congr rfl (Nat.le_succ _)⟩
  | close => exact (closeWith_keeps (d := {}) steady).sure.bind fun _ => pure_sure _

end Engine
end Switchboard
