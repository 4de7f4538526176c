import Switchboard.Proofs.Engine.Order
import Switchboard.Proofs.Link.Speech

/-! Requests that were written. A journal whose every entry was apt has a request for every frame that stands for one,
    registered right before; so under each number one request at most was written, and the one that was registered
    under it was written if it fits. -/

namespace Switchboard

/-! ### What a frame stands for -/
namespace Framing

/-- A frame stands for a request under a number. -/
def asks (f : Framing) (n : UInt64) (frame : Bytes) : Bool := (f.request? frame).any (·.session = n)

/-- A frame stands for a response under a number. -/
def answers (f : Framing) (n : UInt64) (frame : Bytes) : Bool := (f.response? frame).any (·.session = n)

variable {f : Framing} {frame : Bytes} {p q : Packet} {n : UInt64}

theorem request?_eq_some : f.request? frame = some q ↔ f.packet? frame = some q ∧ q.command = .request := by
  unfold request?
  rw [Option.filter_eq_some_iff]
  simp

theorem response?_eq_some : f.response? frame = some p ↔ f.packet? frame = some p ∧ p.command = .response := by
  unfold response?
  rw [Option.filter_eq_some_iff]
  simp

theorem asks_iff : f.asks n frame = true ↔ ∃ q, f.request? frame = some q ∧ q.session = n := by
  unfold asks
  cases f.request? frame <;> simp

theorem answers_iff : f.answers n frame = true ↔ ∃ p, f.response? frame = some p ∧ p.session = n := by
  unfold answers
  cases f.response? frame <;> simp

end Framing

/-! ### What a journal tells of requests -/

section

variable {setup : Setup} {f : Framing} {J K : List Entry} {frame : Bytes} {p q : Packet} {k : Nat} {n : UInt64}

theorem mem_written : frame ∈ written J ↔ .wrote frame ∈ J := by
  unfold written
  rw [List.mem_filterMap]
  constructor
  · rintro ⟨e, mem, said⟩
    cases e <;> cases said
    exact mem
  · exact fun mem => ⟨_, mem, rfl⟩

theorem mem_enrolled : q ∈ enrolled J ↔ ∃ k, .registered k q ∈ J := by
  unfold enrolled
  rw [List.mem_filterMap]
  constructor
  · rintro ⟨e, mem, said⟩
    cases e <;> cases said
    exact ⟨_, mem⟩
  · exact fun ⟨k, mem⟩ => ⟨_, mem, rfl⟩

namespace Worded

/-- A request that was registered is its call's. -/
theorem drafted (worded : Worded f J) (registered : .registered k q ∈ J) :
    ∃ made : Made, made.entry k ∈ J ∧ made.message.Drafts q := by
  obtain ⟨later, earlier, rfl⟩ := List.append_of_mem registered
  obtain ⟨made, mem, drafts⟩ := worded.drop.1.faithful
  exact ⟨made, List.mem_append_right later (List.mem_cons_of_mem _ mem), drafts⟩

/-- A request that was written had been registered. -/
theorem asked (worded : Worded f J) (wrote : .wrote frame ∈ J) (request : f.request? frame = some q) :
    ∃ k r, .registered k r ∈ J ∧ f.encode r = .ok frame ∧ f.layout.borne r = q := by
  obtain ⟨later, earlier, rfl⟩ := List.append_of_mem wrote
  obtain ⟨r, encoded, enrolled⟩ := worded.drop.1.faithful
  obtain ⟨borne, command⟩ := Framing.request?_eq_some.mp request
  obtain rfl := Option.some.inj ((Framing.packet?_encode encoded).symm.trans borne)
  obtain ⟨ticket, before, rfl⟩ := enrolled ((Layout.command_borne _ _).symm.trans command)
  exact ⟨ticket, r, by simp, encoded, rfl⟩

/-- A request that was registered and fits was written. -/
theorem sent (worded : Worded f J) (rested : Rested J) (registered : .registered k q ∈ J)
    (encoded : f.encode q = .ok frame) : .wrote frame ∈ J := by
  obtain ⟨later, earlier, rfl⟩ := List.append_of_mem registered
  rcases List.eq_nil_or_concat later with rfl | ⟨later, e, rfl⟩
  · exact absurd rfl (rested _ _ _)
  · rw [List.concat_eq_append, List.append_assoc, List.singleton_append] at worded ⊢
    have said := worded.drop.1
    rcases said.prompt rfl with ⟨frame', rfl, encoded'⟩ | ⟨fault, rfl⟩
    · cases encoded.symm.trans encoded'
      simp
    · -- What was told instead is that the request does not fit, and it does.
      obtain ⟨r, before, heq, misfit⟩ := said.faithful
      cases heq
      cases encoded.symm.trans misfit

/-- What could not be written was not. -/
theorem misfit {fault : Fault} (worded : Worded f J) (unsent : .unsent k fault ∈ J) :
    ∃ r, .registered k r ∈ J ∧ f.encode r = .error fault := by
  obtain ⟨later, earlier, rfl⟩ := List.append_of_mem unsent
  obtain ⟨r, before, rfl, misfit⟩ := worded.drop.1.faithful
  exact ⟨r, by simp, misfit⟩

/-- Requests are written at most as often as they are registered. -/
theorem countP_asks_le (worded : Worded f J) :
    (written J).countP (f.asks n) ≤ (enrolled J).countP (·.session = n) ∧
    ∀ ticket q earlier, J = .registered ticket q :: earlier →
      (written earlier).countP (f.asks n) ≤ (enrolled earlier).countP (·.session = n) := by
  induction J with
  | nil => exact ⟨Nat.le_refl _, nofun⟩
  | cons e J ih =>
    obtain ⟨tail, beyond⟩ := ih worded.2
    refine ⟨?_, fun _ _ _ heq => (List.cons.inj heq).2 ▸ tail⟩
    cases e with
    | wrote frame =>
      change (frame :: written J).countP _ ≤ (enrolled J).countP _
      cases asks : f.asks n frame with
      | false => rwa [List.countP_cons_of_neg (by simp [asks])]
      | true =>
        -- The request was registered just before, so the two are counted together.
        obtain ⟨q, request, rfl⟩ := Framing.asks_iff.mp asks
        obtain ⟨r, encoded, enrolled⟩ := worded.1.faithful
        obtain ⟨borne, command⟩ := Framing.request?_eq_some.mp request
        obtain rfl := Option.some.inj ((Framing.packet?_encode encoded).symm.trans borne)
        obtain ⟨ticket, earlier, rfl⟩ := enrolled ((Layout.command_borne _ _).symm.trans command)
        have fewer := beyond ticket r earlier rfl
        rw [List.countP_cons_of_pos asks]
        change (written earlier).countP _ + 1 ≤ (r :: Switchboard.enrolled earlier).countP _
        rw [List.countP_cons_of_pos (by simp)]
        exact Nat.succ_le_succ fewer
    | registered ticket q => exact tail.trans (List.sublist_cons_self q (enrolled J)).countP_le
    | _ => exact tail

end Worded

/-- A call's request is the only one under its number. -/
theorem countP_enrolled_le (coherent : Coherent setup J) (distinct : ∀ {k k' q q'}, .registered k q ∈ J →
    .registered k' q' ∈ J → q.session = q'.session → k = k') : (enrolled J).countP (·.session = n) ≤ 1 := by
  induction J with
  | nil => exact Nat.zero_le _
  | cons e J ih =>
    have tail := ih coherent.2 fun mem mem' =>
      distinct (List.mem_cons_of_mem _ mem) (List.mem_cons_of_mem _ mem')
    cases e with
    | registered k q =>
      change (q :: enrolled J).countP _ ≤ 1
      by_cases number : q.session = n
      · have fate : (account k J).fate = .unregistered := coherent.1
        have told := told_fate J k
        rw [fate] at told
        have none : (enrolled J).countP (·.session = n) = 0 := by
          refine List.countP_eq_zero.mpr fun r mem same => ?_
          obtain ⟨k', registered⟩ := mem_enrolled.mp mem
          obtain rfl := distinct List.mem_cons_self (List.mem_cons_of_mem _ registered)
            (number.trans (of_decide_eq_true same).symm)
          exact told r registered
        rw [List.countP_cons_of_pos (by simpa using number), none]
      · rwa [List.countP_cons_of_neg (by simpa using number)]
    | _ => exact tail

end

end Switchboard
