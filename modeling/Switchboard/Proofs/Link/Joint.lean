import Mathlib.Data.List.Perm.Subperm
import Mathlib.Logic.Function.Basic
import Switchboard.Proofs.Engine.Underway
import Switchboard.Proofs.Link.Acts
import Switchboard.Proofs.Link.Requests
import Switchboard.Proofs.Link.Service

/-! Two connections that are joined by a line. At either end anything may be done at any time, and a frame that was
    written at one end may arrive at the other, in any order; none arrives that was not written, and none more often
    than it was written. Each end remembers the frames that arrived, with what it was before and after each. -/

namespace Switchboard

/-- One of the two ends of a line. -/
inductive Side where
  | near
  | far
  deriving DecidableEq

def Side.other : Side → Side
  | near => far
  | far => near

@[simp] theorem Side.other_other (x : Side) : x.other.other = x := by cases x <;> rfl

/-- A frame that arrived, and what it met and left. -/
structure Passage where
  frame : Bytes
  depth : Nat
  before : Engine
  after : Engine

/-- An end of a line, and the frames that arrived at it, the latest first. -/
structure End where
  engine : Engine
  past : List Passage := []

namespace End

def arrived (E : End) : List Bytes := E.past.map (·.frame)

/-- The frames that were written, the latest first. -/
def sent (E : End) : List Bytes := written E.engine.journal

/-- Something was done at the end. -/
def turn (E : End) (t : Engine) : End := { E with engine := t }

/-- A frame arrived at the end. -/
def take (E : End) (frame : Bytes) (depth : Nat) (t : Engine) : End :=
  { engine := t, past := { frame, depth, before := E.engine, after := t } :: E.past }

end End

abbrev Joint := Side → End

namespace Joint

/-- Every frame that was written at the other end has arrived. -/
def Drained (J : Joint) (x : Side) : Prop := (J x).arrived.Perm (J x.other).sent

end Joint

open Engine

/-- Two ends can be joined: they write and read frames alike, and neither has filters or a limit on its load. -/
structure Fellows (f : Framing) (setups : Side → Setup) : Prop where
  framing : ∀ x, (setups x).framing = f
  upright : ∀ x, (setups x).Upright

/-- What two ends that are joined can come to. Both start without calls. -/
inductive Linked (setups : Side → Setup) : Joint → Prop where
  | start (issuers : Side → Issuer) (contexts : Side → ContextPool) (hosted : Side → Bool)
      (whole : ∀ x, (issuers x).pool.gets = (issuers x).pool.puts) :
      Linked setups fun x => { engine := { issuer := issuers x, contexts := contexts x, hosted := hosted x } }
  | work {J : Joint} {x : Side} {depth : Nat} {a : Act} {o : Outcome} {t : Engine} (before : Linked setups J)
      (own : a.Own) (done : act (setups x) depth a (J x).engine = .ok (o, t)) : Linked setups (Function.update J x ((J x).turn t))
  | arrive {J : Joint} {x : Side} {frame : Bytes} {depth : Nat} {o : Outcome} {t : Engine} (before : Linked setups J)
      (honest : (frame :: (J x).arrived).Subperm (J x.other).sent)
      (done : act (setups x) depth (.receive frame) (J x).engine = .ok (o, t)) :
      Linked setups (Function.update J x ((J x).take frame depth t))

/-! ### What holds at an end -/

/-- A response was written of a frame that arrived. -/
def Passage.Utters (f : Framing) (D : Passage) (p : Packet) : Prop :=
  ∃ es, D.after.journal = es ++ D.before.journal ∧ p ∈ (written es).filterMap f.response?

/-- A frame met a connection between two things done with it. -/
structure Passage.Sound (setup : Setup) (D : Passage) : Prop where
  reachable : Reachable setup false D.before
  plainly : D.before.Plainly
  taken : ∃ r, receiveWith setup (nested setup D.depth) D.frame D.before = .ok (r, D.after)

/-- No response was heard before a request was registered under its number. -/
def Caused (J : List Entry) : Prop := ∀ later e earlier p, J = later ++ e :: earlier → e.heard? = some p →
  ∃ k q, .registered k q ∈ earlier ∧ q.session = p.session

/-- What an end wrote and heard, and of which frames. -/
structure End.Sane (f : Framing) (setup : Setup) (E : End) : Prop where
  reachable : Reachable setup false E.engine
  plainly : E.engine.Plainly
  worded : Worded f E.engine.journal
  heard : Switchboard.heard E.engine.journal = E.arrived.filterMap f.response?
  said : ∀ p, p ∈ E.sent.filterMap f.response? ↔ ∃ D ∈ E.past, D.Utters f p
  sound : ∀ D ∈ E.past, D.Sound setup
  later : ∀ D ∈ E.past, Later setup D.after E.engine
  ordered : E.past.Pairwise fun D D' => Later setup D'.after D.before
  caused : Caused E.engine.journal

section

variable {f : Framing} {setup : Setup} {E : End} {J K : List Entry} {e : Entry} {p : Packet} {s t : Engine}

theorem Engine.Later.journal (later : Later setup s t) : ∃ es, t.journal = es ++ s.journal := by
  induction later with
  | moves m => exact m.journal
  | around | others => exact ⟨[], rfl⟩
  | trans _ _ first second =>
    obtain ⟨es, hes⟩ := first
    obtain ⟨es', hes'⟩ := second
    exact ⟨es' ++ es, by rw [hes', hes, List.append_assoc]⟩

theorem sent_sublist (later : Later setup E.engine t) : E.sent.Sublist (written t.journal) := by
  obtain ⟨es, hes⟩ := later.journal
  rw [hes]
  exact (List.sublist_append_right es _).filterMap _

theorem heard_append : heard (K ++ J) = heard K ++ heard J := List.filterMap_append

theorem written_append : written (K ++ J) = written K ++ written J := List.filterMap_append

theorem mem_heard : p ∈ heard J ↔ ∃ e ∈ J, e.heard? = some p := List.mem_filterMap

theorem Caused.append {es : List Entry} (caused : Caused J)
    (known : ∀ p ∈ heard es, ∃ k q, .registered k q ∈ J ∧ q.session = p.session) : Caused (es ++ J) := by
  intro later e earlier p whole said
  -- What was heard is among the later entries or among the earlier ones, or it is what divides them.
  rcases List.append_eq_append_iff.mp whole with ⟨as, rfl, rest⟩ | ⟨bs, rfl, rest⟩
  · exact caused as e earlier p rest said
  · cases bs with
    | nil => exact caused [] e earlier p rest.symm said
    | cons e' bs =>
      obtain ⟨rfl, rfl⟩ := List.cons.inj rest
      obtain ⟨k, q, registered, number⟩ := known p (mem_heard.mpr ⟨e, by simp, said⟩)
      exact ⟨k, q, List.mem_append_right bs registered, number⟩

theorem Caused.drop (caused : Caused (K ++ J)) : Caused J := by
  rintro later e earlier p rfl said
  exact caused (K ++ later) e earlier p (List.append_assoc _ _ _).symm said

/-- A response that was heard had been asked for. -/
theorem Caused.registered (caused : Caused J) (mem : p ∈ heard J) :
    ∃ k q, .registered k q ∈ J ∧ q.session = p.session := by
  obtain ⟨e, there, said⟩ := mem_heard.mp mem
  obtain ⟨later, earlier, rfl⟩ := List.append_of_mem there
  obtain ⟨k, q, registered, number⟩ := caused later e earlier p rfl said
  exact ⟨k, q, List.mem_append_right later (List.mem_cons_of_mem e registered), number⟩

theorem End.Sane.turn (sane : E.Sane f setup) (spoke : Spoke f E.engine [] [] t) (reached : Reachable setup false t)
    (later : Later setup E.engine t) : (E.turn t).Sane f setup where
  reachable := reached
  plainly := spoke.plainly
  worded := spoke.worded sane.worded
  heard := by
    obtain ⟨es, hes, -, none⟩ := spoke.journal
    change Switchboard.heard t.journal = _
    rw [hes, heard_append, none]
    exact sane.heard
  said p := by
    obtain ⟨es, hes, none, -⟩ := spoke.journal
    change p ∈ (written t.journal).filterMap f.response? ↔ _
    rw [hes, written_append, List.filterMap_append, none]
    exact sane.said p
  sound := sane.sound
  later D mem := (sane.later D mem).trans later
  ordered := sane.ordered
  caused := by
    obtain ⟨es, hes, -, none⟩ := spoke.journal
    change Caused t.journal
    rw [hes]
    exact sane.caused.append (by simp [none])

theorem End.Sane.take (sane : E.Sane f setup) {said : List Packet} {frame : Bytes} {depth : Nat} {r : Except Fault Unit}
    (spoke : Spoke f E.engine said.reverse (f.response? frame).toList t) (reached : Reachable setup false t)
    (taken : receiveWith setup (nested setup depth) frame E.engine = .ok (r, t)) (later : Later setup E.engine t)
    (known : ∀ p, f.response? frame = some p → ∃ k q, .registered k q ∈ E.engine.journal ∧ q.session = p.session) :
    (E.take frame depth t).Sane f setup where
  reachable := reached
  plainly := spoke.plainly
  worded := spoke.worded sane.worded
  heard := by
    obtain ⟨es, hes, -, listened⟩ := spoke.journal
    change Switchboard.heard t.journal = (frame :: E.arrived).filterMap _
    rw [hes, heard_append, listened, sane.heard, List.filterMap_cons]
    cases f.response? frame <;> rfl
  said p := by
    obtain ⟨es, hes, -, -⟩ := spoke.journal
    change p ∈ (written t.journal).filterMap f.response? ↔ ∃ D ∈ _ :: E.past, _
    rw [hes, written_append, List.filterMap_append, List.mem_append, List.exists_mem_cons_iff]
    refine or_congr ?_ (sane.said p)
    constructor
    · exact fun mem => ⟨es, hes, mem⟩
    · rintro ⟨es', hes', mem⟩
      exact List.append_cancel_right (hes.symm.trans hes') ▸ mem
  sound := List.forall_mem_cons.mpr ⟨⟨sane.reachable, sane.plainly, r, taken⟩, sane.sound⟩
  later := List.forall_mem_cons.mpr ⟨.moves (K := 0) .refl, fun D mem => (sane.later D mem).trans later⟩
  ordered := List.pairwise_cons.mpr ⟨sane.later, sane.ordered⟩
  caused := by
    obtain ⟨es, hes, -, listened⟩ := spoke.journal
    change Caused t.journal
    rw [hes]
    refine sane.caused.append fun p mem => known p ?_
    rw [listened] at mem
    exact Option.mem_toList.mp mem

end

/-! ### What holds at both -/

section

variable {f : Framing} {setups : Side → Setup} {J : Joint}

theorem forall_update {P : Side → End → Prop} {x : Side} {E : End} (own : P x E) (rest : ∀ y, P y (J y)) :
    ∀ y, P y (Function.update J x E y) :=
  (Function.forall_update_iff J P).mpr ⟨own, fun y _ => rest y⟩

/-- What came of a frame that arrived, and which responses were written of it. -/
theorem Passage.Sound.reception {setup : Setup} {D : Passage} (sound : D.Sound setup) (upright : setup.Upright) :
    ∃ said, Reception setup D.depth D.before D.after (setup.framing.packet? D.frame) said ∧
      (∀ p, D.Utters setup.framing p ↔ p ∈ said) ∧ heard D.after.journal =
        (setup.framing.response? D.frame).toList ++ heard D.before.journal ∧
      ∀ p ∈ said, ∃ q, setup.framing.request? D.frame = some q ∧ p.session = q.session := by
  obtain ⟨r, taken⟩ := sound.taken
  obtain ⟨said, reception, spoke, own⟩ := receiveWith_spoke upright sound.plainly taken
  obtain ⟨es, hes, wrote, listened⟩ := spoke.journal
  refine ⟨said, reception, fun p => ⟨?_, fun mem => ?_⟩, by rw [hes, heard_append, listened], own⟩
  · rintro ⟨es', hes', mem⟩
    obtain rfl := List.append_cancel_right (hes.symm.trans hes')
    exact List.mem_reverse.mp (wrote ▸ mem)
  · exact ⟨es, hes, wrote ▸ List.mem_reverse.mpr mem⟩

theorem Linked.sane (fellows : Fellows f setups) (linked : Linked setups J) :
    (∀ x, (J x).Sane f (setups x)) ∧ ∀ x, (J x).arrived.Subperm (J x.other).sent := by
  induction linked with
  | start issuers contexts hosted whole =>
    refine ⟨fun x => ?_, fun x => List.nil_subperm⟩
    exact {
      reachable := .start (issuers x) (contexts x) {} (hosted x) fun _ => whole x
      plainly := ⟨rfl, nofun, nofun, nofun⟩
      worded := trivial
      heard := rfl
      said := by simp [End.sent, written]
      sound := nofun
      later := nofun
      ordered := .nil
      caused := by simp [Caused] }
  | @work J x depth a o t before own done ih =>
    obtain ⟨sane, honest⟩ := ih
    have reached := (sane x).reachable.act depth a done
    have spoke := act_hushed (fellows.upright x) (sane x).reachable.inv (sane x).plainly own done
    rw [fellows.framing x] at spoke
    have later : Later (setups x) (J x).engine t := .moves (act_moves done 0)
    refine ⟨forall_update ((sane x).turn spoke reached later) sane, fun y => ?_⟩
    -- At the other end nothing happened, and what was written here only grew.
    have arrived : ∀ y, (Function.update J x ((J x).turn t) y).arrived = (J y).arrived :=
      forall_update (P := fun y E => E.arrived = (J y).arrived) rfl fun _ => rfl
    have sent : ∀ y, (J y).sent.Sublist (Function.update J x ((J x).turn t) y).sent :=
      forall_update (P := fun y E => (J y).sent.Sublist E.sent) (sent_sublist later) fun _ => .refl _
    exact arrived y ▸ (honest y).trans (sent y.other).subperm
  | @arrive J x frame depth o t before whence done ih =>
    obtain ⟨sane, honest⟩ := ih
    have reached := (sane x).reachable.act depth _ done
    have later : Later (setups x) (J x).engine t := .moves (act_moves done 0)
    obtain ⟨r, taken, -⟩ := map_eq_ok.mp done
    obtain ⟨said, -, spoke, -⟩ := receiveWith_spoke (fellows.upright x) (sane x).plainly taken
    rw [fellows.framing x] at spoke
    -- A response that arrives was written of a request, which was registered here before it was written.
    have known : ∀ p, f.response? frame = some p →
        ∃ k q, .registered k q ∈ (J x).engine.journal ∧ q.session = p.session := by
      intro p response
      have wrote : p ∈ (J x.other).sent.filterMap f.response? :=
        List.mem_filterMap.mpr ⟨frame, whence.subset List.mem_cons_self, response⟩
      obtain ⟨D, past, utters⟩ := ((sane x.other).said p).mp wrote
      obtain ⟨said, -, utters_iff, -, own⟩ := ((sane x.other).sound D past).reception (fellows.upright x.other)
      rw [fellows.framing x.other] at utters_iff own
      obtain ⟨q, request, number⟩ := own p ((utters_iff p).mp utters)
      have came : D.frame ∈ (J x.other).arrived := List.mem_map_of_mem past
      have asked : D.frame ∈ (J x).sent := x.other_other ▸ (honest x.other).subset came
      obtain ⟨k, r, registered, -, borne⟩ := (sane x).worded.asked (mem_written.mp asked) request
      exact ⟨k, r, registered, by rw [number, ← borne, Layout.session_borne]⟩
    refine ⟨forall_update ((sane x).take spoke reached taken later known) sane, ?_⟩
    have sent : ∀ y, (J y).sent.Sublist (Function.update J x ((J x).take frame depth t) y).sent :=
      forall_update (P := fun y E => (J y).sent.Sublist E.sent) (sent_sublist later) fun _ => .refl _
    have came := forall_update (x := x) (E := (J x).take frame depth t)
      (P := fun y E => E.arrived.Subperm (J y.other).sent) whence honest
    exact fun y => (came y).trans (sent y.other).subperm

end

end Switchboard
