import Switchboard.Proofs.Chains.Rounds
import Switchboard.Proofs.HandlerChain

/-! What it takes for callbacks to be run. Wherever the journal says that they were, the response filter was given their
    request and took a context with the packet along them, and they came to their end before anything else that was
    under way could. Besides them only packets that were routed go along chains. -/

namespace Switchboard

/-- By how much an entry changes the number of packets that are away: one sets out along a chain, or comes back. -/
def Entry.drift : Entry → Int
  | .routed _ | .delivered _ _ => 1
  | .released _ => -1
  | _ => 0

/-- How many packets have set out along chains and did not come back. -/
def abroad (J : List Entry) : Int := (J.map Entry.drift).sum

open Engine in
/-- Callbacks that are run, one step at a time: those that start do so in their order, each once; they are all run unless
    one is skipped or the response filter asks for none; and the packet and the context go back once. -/
def Pending.TakesTurns (setup : Setup) (pending : Pending) (depth : Nat) (q : Parcel) (s t : Engine) : Prop :=
  ∃ ds c', Steps setup (nested setup depth) pending.callbacks
      (.outset (setup.responseFilter pending.request.toPacket) (s.contexts.get.1.bind q false)
        (s.launch pending q.toPacket)) ds ⟨[], c', t⟩ ∧
    InTurn pending.callbacks ds ∧ Settled pending.callbacks q ds

/-- Callbacks were run on a packet right after the journal said so, when it had told so much before, and all that they
    did is told in what it has come to. -/
inductive Pending.Ran (setup : Setup) (pending : Pending) (p : Packet) (earlier J : List Entry) : Prop where
  | intro {depth : Nat} {q : Parcel} {s t : Engine} (packet : q.toPacket = p) (before : s.journal = earlier)
      (whole : pending.RunsOn setup depth q s t)
      (turns : pending.callbacks.length < Switchboard.abortIndex → pending.TakesTurns setup depth q s t)
      (after : t.journal <:+ J)

section

variable {setup : Setup} {pending : Pending} {p : Packet} {q : Parcel} {depth : Nat} {s t : Engine}
  {earlier J K : List Entry}

theorem abroad_cons {e : Entry} : abroad (e :: J) = abroad J + e.drift := by
  unfold abroad
  rw [List.map_cons, List.sum_cons, Int.add_comm]

/-- An entry about no chain changes nothing. -/
theorem abroad_cons_of_drift {e : Entry} (still : e.drift = 0) : abroad (e :: J) = abroad J := by
  rw [abroad_cons, still, Int.add_zero]

theorem Entry.Bland.drift {e : Entry} (bland : e.Bland) : e.drift = 0 := by
  cases e <;> first | rfl | exact bland.elim

/-- Callbacks are run as every chain is. -/
theorem Pending.RunsOn.turns (whole : pending.RunsOn setup depth q s t)
    (short : pending.callbacks.length < abortIndex) : pending.TakesTurns setup depth q s t := by
  obtain ⟨c', ds, steps⟩ := (Engine.drive_eq_ok_iff (Nat.le_of_lt short) _ (.inr (.inl rfl))).mp whole
  have holds := steps.disciplined short
  exact ⟨ds, c', steps, holds.inTurn, holds.settled⟩

theorem Pending.Ran.mono (ran : pending.Ran setup p earlier J) (more : J <:+ K) : pending.Ran setup p earlier K := by
  obtain ⟨packet, before, whole, turns, after⟩ := ran
  exact ⟨packet, before, whole, turns, after.trans more⟩

end

namespace Engine

variable {setup : Setup} {shared : Bool} {s t u : Engine} {K K' : List Chain}

/-! ### Callbacks that the journal tells of -/

/-- From one state to another the journal grew, and whatever callbacks it tells of since were run by then. -/
structure Fulfilled (setup : Setup) (s t : Engine) : Prop where
  grown : s.journal <:+ t.journal
  ran : ∀ {later pending p earlier}, t.journal = later ++ .delivered pending p :: earlier → s.journal <:+ earlier →
    pending.Ran setup p earlier t.journal

/-- What a journal tells was told by the time that it had come to be as it once was, or since. -/
theorem before_or_since {J J' later earlier : List Entry} {e : Entry} (grown : J' <:+ J)
    (split : J = later ++ e :: earlier) : e :: earlier <:+ J' ∨ J' <:+ earlier := by
  have own : e :: earlier <:+ J := ⟨later, split.symm⟩
  rcases List.suffix_or_suffix_of_suffix grown own with after | before
  · rcases List.suffix_cons_iff.mp after with rfl | after
    · exact .inl List.suffix_rfl
    · exact .inr after
  · exact .inl before

/-- Of two beginnings of a journal that are told one after the other, the one is the other or lies before it. -/
theorem suffix_of_since {J later earlier earlier' : List Entry} {e e' : Entry} (split : J = later ++ e :: earlier)
    (told : e' :: earlier' <:+ J) (since : earlier' <:+ earlier) :
    e' = e ∧ earlier' = earlier ∨ e' :: earlier' <:+ earlier := by
  have own : e :: earlier <:+ J := ⟨later, split.symm⟩
  have within : e' :: earlier' <:+ e :: earlier :=
    List.suffix_of_suffix_length_le told own (Nat.succ_le_succ since.length_le)
  rcases List.suffix_cons_iff.mp within with same | before
  · exact .inl (List.cons.inj same)
  · exact .inr before

namespace Fulfilled

/-- Nothing was told. -/
theorem of_eq (journal : t.journal = s.journal) : Fulfilled setup s t where
  grown := journal ▸ List.suffix_rfl
  ran {later pending p earlier} split since := by
    rw [journal] at split
    have longer := since.length_le
    rw [split, List.length_append, List.length_cons] at longer
    omega

theorem trans (first : Fulfilled setup s t) (second : Fulfilled setup t u) : Fulfilled setup s u where
  grown := first.grown.trans second.grown
  ran {later pending p earlier} split since := by
    -- The entry is told before the state between the two, or after it.
    rcases before_or_since second.grown split with ⟨between, split'⟩ | after
    · exact (first.ran split'.symm since).mono second.grown
    · exact second.ran split after

/-- Something else was told. -/
theorem single {e : Entry} (journal : t.journal = e :: s.journal) (other : ∀ pending p, e ≠ .delivered pending p) :
    Fulfilled setup s t where
  grown := journal ▸ List.suffix_cons e s.journal
  ran {later pending p earlier} split since := by
    have told : e :: s.journal <:+ t.journal := journal ▸ List.suffix_rfl
    rcases suffix_of_since split told since with ⟨same, -⟩ | before
    · exact absurd same (other pending p)
    · -- What was told before is too long to have been told since.
      have longer := before.length_le
      rw [← journal, split, List.length_append, List.length_cons] at longer
      omega

end Fulfilled

theorem Beat.fulfilled (beat : Beat setup s K t K') : Fulfilled setup s t := by
  cases beat with
  | still journal _ => exact .of_eq journal
  | note bland =>
    refine .single rfl ?_
    rintro pending p rfl
    exact bland
  | accept p _ _ =>
    have weighed : Fulfilled setup s (s.note (.weighed (s.load + 1) false)) := .single rfl nofun
    exact weighed.trans (.single rfl nofun)
  | look | drop _ _ | route _ _ | release _ _ | enroll _ => exact .single rfl nofun

theorem Beats.fulfilled (beats : Beats setup s K t K') : Fulfilled setup s t := by
  induction beats with
  | refl => exact .of_eq rfl
  | tail _ last ih => exact ih.trans last.fulfilled
  | @callbacks _ t u _ _ pending depth q _ inside whole before within =>
    refine before.trans ⟨(List.suffix_cons _ _).trans within.grown, ?_⟩
    -- The first that is told of since is these very callbacks, which are through by now.
    intro later pending' p earlier split since
    rcases suffix_of_since split within.grown since with ⟨same, rfl⟩ | after
    · obtain ⟨rfl, rfl⟩ := Entry.delivered.inj same
      exact ⟨rfl, rfl, whole, whole.turns, List.suffix_rfl⟩
    · exact within.ran split after

/-- Whatever callbacks the journal tells of were run. -/
theorem Reachable.fulfilled (run : Reachable setup shared s) : Fulfilled setup {} s := by
  induction run with
  | start => exact .of_eq rfl
  | act before depth a done ih => exact ih.trans (act_beats (K := []) before.inv done).fulfilled
  | around _ _ _ ih => exact ⟨ih.grown, ih.ran⟩
  | others _ _ _ _ _ ih => exact ⟨ih.grown, ih.ran⟩

/-! ### Chains that begin and end -/

theorem abroad_note {e : Entry} : abroad (s.note e).journal = abroad s.journal + e.drift := abroad_cons

/-- One beat brings as many packets away or back as there are chains more or fewer under way. -/
theorem Beat.abroad_sub (beat : Beat setup s K t K') : abroad t.journal - K'.length = abroad s.journal - K.length := by
  cases beat with
  | still journal _ => rw [journal]
  | note bland => exact congrArg (· - _) (abroad_cons_of_drift bland.drift)
  | look | drop _ _ | enroll _ => exact congrArg (· - _) (abroad_cons_of_drift rfl)
  | accept p _ _ =>
    simp only [abroad_cons, Entry.drift, List.length_cons]
    omega
  | route p _ =>
    simp only [abroad_note, Entry.drift, List.length_cons]
    omega
  | release p _ =>
    simp only [abroad_cons, Entry.drift, List.length_cons]
    omega

theorem Beats.abroad_sub (beats : Beats setup s K t K') :
    abroad t.journal - K'.length = abroad s.journal - K.length := by
  induction beats with
  | refl => rfl
  | tail _ last ih => exact last.abroad_sub.trans ih
  | callbacks _ _ _ before inside =>
    simp only [abroad_note, Entry.drift, List.length_cons] at inside
    omega

/-- Work that ends the chains that it begins has every packet come back that it sent out. -/
theorem Beats.abroad_eq (beats : Beats setup s K t K) : abroad t.journal = abroad s.journal := by
  have := beats.abroad_sub
  omega

end Engine
end Switchboard
