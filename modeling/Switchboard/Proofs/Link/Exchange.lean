import Switchboard.Proofs.Link.Answers

/-! A request and its responses between two ends that are joined. Under the number of a request that was registered at
    one end one request at most arrives at the other, and it is that one; and the responses that come back under it were
    written of it. -/

namespace Switchboard

open Engine

/-- A layout carries a route. -/
def Layout.Suits : Layout → Route → Prop
  | .uri, .uri _ | .id, .id _ => True
  | _, _ => False

/-- Nothing of a request is lost whose route the layout carries. -/
theorem Outbound.Drafts.borne {l : Layout} {m : Outbound} {q : Packet} (drafts : m.Drafts q) (suits : l.Suits m.route) :
    l.borne q = q := by
  have route := drafts.route
  rcases l with _ | _ <;> rcases hroute : m.route with path | number <;> rw [hroute] at suits route
  · exact Layout.borne_eq_self (fun _ => route ▸ rfl) nofun
  · exact suits.elim
  · exact suits.elim
  · exact Layout.borne_eq_self nofun fun _ => route ▸ rfl

namespace End

/-- The arrivals of requests under a number, the latest first. -/
def askings (E : End) (f : Framing) (n : UInt64) : List Passage := E.past.filter fun D => f.asks n D.frame

/-- The arrivals of responses under a number, the latest first. -/
def answerings (E : End) (f : Framing) (n : UInt64) : List Passage := E.past.filter fun D => f.answers n D.frame

variable {f : Framing} {setup : Setup} {E : End} {D : Passage} {n : UInt64}

theorem length_askings : (E.askings f n).length = E.arrived.countP (f.asks n) := by
  unfold askings arrived
  rw [List.countP_map, List.countP_eq_length_filter]
  rfl

theorem mem_askings : D ∈ E.askings f n ↔ D ∈ E.past ∧ ∃ q, f.request? D.frame = some q ∧ q.session = n := by
  unfold askings
  rw [List.mem_filter, Framing.asks_iff]

theorem mem_answerings : D ∈ E.answerings f n ↔ D ∈ E.past ∧ ∃ p, f.response? D.frame = some p ∧ p.session = n := by
  unfold answerings
  rw [List.mem_filter, Framing.answers_iff]

/-- What was heard under a number came in the frames of the responses that arrived under it. -/
theorem Sane.heard_filter (sane : E.Sane f setup) : (Switchboard.heard E.engine.journal).filter (·.session = n) =
    (E.answerings f n).filterMap fun D => f.response? D.frame := by
  rw [sane.heard]
  unfold arrived answerings
  simp only [List.filterMap_map, Function.comp_def]
  generalize E.past = past
  induction past with
  | nil => rfl
  | cons D past ih =>
    have answers : f.answers n D.frame = (f.response? D.frame).any (·.session = n) := rfl
    rw [List.filterMap_cons, List.filter_cons, answers]
    cases response : f.response? D.frame with
    | none => exact ih
    | some p =>
      by_cases number : p.session = n
      · simp [number, response, ih]
      · simp [number, ih]

end End

section

variable {f : Framing} {setups : Side → Setup} {J : Joint} {x : Side} {k : Nat} {p q : Packet} {D : Passage}
  (fellows : Fellows f setups) (linked : Linked setups J)
include fellows linked

/-- A response was written of a request under its number, and came from there. -/
theorem Linked.whence (mem : D ∈ (J x).answerings f q.session) : ∃ p A, f.response? D.frame = some p ∧
    p.session = q.session ∧ A ∈ (J x.other).askings f q.session ∧ A.Utters f p := by
  obtain ⟨sane, honest⟩ := linked.sane fellows
  obtain ⟨past, p, response, number⟩ := End.mem_answerings.mp mem
  have sent : D.frame ∈ (J x.other).sent := (honest x).subset (List.mem_map_of_mem past)
  have wrote : p ∈ (J x.other).sent.filterMap f.response? := List.mem_filterMap.mpr ⟨_, sent, response⟩
  obtain ⟨A, there, utters⟩ := ((sane x.other).said p).mp wrote
  obtain ⟨said, -, utters_iff, -, own⟩ := ((sane x.other).sound A there).reception (fellows.upright x.other)
  rw [fellows.framing x.other] at utters_iff own
  obtain ⟨q', request, same⟩ := own p ((utters_iff p).mp utters)
  exact ⟨p, A, response, number, End.mem_askings.mpr ⟨there, q', request, same.symm.trans number⟩, utters⟩

/-- Where no frame is lost a response that was written of a request arrives. -/
theorem Linked.arrives (drained : J.Drained x) (mem : D ∈ (J x.other).past) (utters : D.Utters f p)
    (number : p.session = q.session) : (J x).answerings f q.session ≠ [] := by
  obtain ⟨sane, -⟩ := linked.sane fellows
  obtain ⟨frame, sent, response⟩ := List.mem_filterMap.mp (((sane x.other).said p).mpr ⟨D, mem, utters⟩)
  obtain ⟨A, past, rfl⟩ := List.mem_map.mp (drained.mem_iff.mpr sent)
  exact List.ne_nil_of_mem (End.mem_answerings.mpr ⟨past, p, response, number⟩)

variable (few : (J x).engine.issuer.drawn ≤ numbers)
include few

/-- One request at most arrives under a number. -/
theorem Linked.askings_le_one (n : UInt64) : ((J x.other).askings f n).length ≤ 1 := by
  obtain ⟨sane, honest⟩ := linked.sane fellows
  have honest := honest x.other
  rw [Side.other_other] at honest
  have run := (sane x).reachable
  rw [End.length_askings]
  refine (honest.countP_le _).trans (((sane x).worded.countP_asks_le).1.trans ?_)
  exact countP_enrolled_le run.inv.coherent fun mem mem' same => (run.registered_unique few mem' mem same).1

variable (registered : .registered k q ∈ (J x).engine.journal)
include registered

/-- The request that arrives under the number of a call is the call's. -/
theorem Linked.asked (mem : D ∈ (J x.other).askings f q.session) : f.encode q = .ok D.frame := by
  obtain ⟨sane, honest⟩ := linked.sane fellows
  have honest := honest x.other
  rw [Side.other_other] at honest
  obtain ⟨past, q', request, number⟩ := End.mem_askings.mp mem
  have sent : D.frame ∈ (J x).sent := honest.subset (List.mem_map_of_mem past)
  obtain ⟨k', r, enrolled, encoded, rfl⟩ := (sane x).worded.asked (mem_written.mp sent) request
  rw [Layout.session_borne] at number
  -- No other call has a request under the number.
  obtain ⟨-, rfl⟩ := (sane x).reachable.registered_unique few registered enrolled number
  exact encoded

theorem Linked.unsent_of_asking (mem : D ∈ (J x.other).askings f q.session) (fault : Fault) :
    .unsent k fault ∉ (J x).engine.journal := by
  intro unsent
  obtain ⟨sane, -⟩ := linked.sane fellows
  obtain ⟨r, enrolled, misfit⟩ := (sane x).worded.misfit unsent
  have coherent := (sane x).reachable.inv.coherent
  have request := coherent.request_of_mem registered
  obtain rfl : r = q := Option.some.inj ((coherent.request_of_mem enrolled).symm.trans request)
  cases misfit.symm.trans (linked.asked fellows few registered mem)

/-- Where no frame is lost a request that fits arrives. -/
theorem Linked.askings_eq_one {frame : Bytes} (encoded : f.encode q = .ok frame) (drained : J.Drained x.other) :
    ((J x.other).askings f q.session).length = 1 := by
  refine Nat.le_antisymm (linked.askings_le_one fellows few q.session) ?_
  obtain ⟨sane, -⟩ := linked.sane fellows
  unfold Joint.Drained at drained
  rw [Side.other_other] at drained
  have sent := mem_written.mpr ((sane x).worded.sent (sane x).plainly.rested registered encoded)
  have arrived : frame ∈ (J x.other).arrived := drained.mem_iff.mpr sent
  obtain ⟨made, -, drafts⟩ := (sane x).worded.drafted registered
  rw [End.length_askings]
  refine List.countP_pos_iff.mpr ⟨frame, arrived, Framing.asks_iff.mpr ⟨f.layout.borne q, ?_, Layout.session_borne _ _⟩⟩
  exact Framing.request?_eq_some.mpr ⟨Framing.packet?_encode encoded, (Layout.command_borne _ _).trans drafts.command⟩

/-- The first response that arrives under the number of a call meets its session, unless something else ended it. -/
theorem Linked.matched {later : List Passage} {A : Passage} (undisturbed : Undisturbed (J x).engine.journal k)
    (first : (J x).answerings f q.session = later ++ [A]) (response : f.response? A.frame = some p) :
    .matched k p ∈ (J x).engine.journal := by
  obtain ⟨sane, -⟩ := linked.sane fellows
  have arrived : A ∈ (J x).answerings f q.session := first ▸ by simp
  obtain ⟨-, D, -, -, mem, -⟩ := linked.whence fellows arrived
  have heard : (heard (J x).engine.journal).filter (·.session = q.session) =
      (later.filterMap fun D => f.response? D.frame) ++ [p] := by
    rw [(sane x).heard_filter, first, List.filterMap_append]
    simp [response]
  exact (sane x).reachable.first_answer few (sane x).caused registered undisturbed
    (linked.unsent_of_asking fellows few registered mem) heard

end

end Switchboard
