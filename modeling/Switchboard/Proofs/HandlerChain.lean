import Switchboard.Proofs.Engine.Stages
import Switchboard.Proofs.Engine.Steady

/-! A packet on its way along a chain of handlers. However they ask for the handlers after them and skip them, and
    whatever runs them: they start in their order, each once, and none after an abort; the packet stays with them while
    one of them is running; and in the end the packet and the context have gone back once. -/

namespace Switchboard
namespace Engine

/-! ### What was done -/

def Deed.start? : Deed → Option Nat
  | .start position => some position
  | _ => none

def Deed.release? : Deed → Option Parcel
  | .release p => some p
  | _ => none

def Deed.revise (p : Parcel) : Deed → Parcel
  | .edit change => p.edit change
  | _ => p

/-- The positions of the handlers that were started. -/
def starts (ds : List Deed) : List Nat := ds.filterMap Deed.start?

/-- The packets that were given back. -/
def releases (ds : List Deed) : List Parcel := ds.filterMap Deed.release?

/-- A packet as it was left. -/
def edits (p : Parcel) (ds : List Deed) : Parcel := ds.foldl Deed.revise p

variable {setup : Setup} {inner : Inner} {chain : List Program} {g g' : Stage} {d : Deed} {ds past : List Deed}

theorem starts_snoc : starts (past ++ [d]) = starts past ++ d.start?.toList := by
  unfold starts
  rw [List.filterMap_append, List.filterMap_cons, List.filterMap_nil]
  cases d.start? <;> rfl

theorem releases_snoc : releases (past ++ [d]) = releases past ++ d.release?.toList := by
  unfold releases
  rw [List.filterMap_append, List.filterMap_cons, List.filterMap_nil]
  cases d.release? <;> rfl

theorem edits_snoc {p : Parcel} : edits p (past ++ [d]) = d.revise (edits p past) := List.foldl_append

/-! ### What lies within what -/

/-- Every handler was started by a run of handlers, every run of handlers by a program that asked for it, and below all
    is what the handlers are run by. -/
inductive Layered (asked : Prop) : List Layer → Prop where
  | gone : Layered asked []
  | storing : Layered asked [.store]
  | releasing : Layered asked [.release, .store]
  | entry {rest} : Layered asked [.program none rest, .release, .store]
  | between {rest} (called : asked) : Layered asked [.release, .program none rest, .release, .store]
  | loop {who rest below} (called : asked) (within : Layered asked (.program who rest :: below)) :
    Layered asked (.loop :: .program who rest :: below)
  | handler {position rest below} (within : Layered asked (.loop :: below)) :
    Layered asked (.program (some position) rest :: .loop :: below)

/-- How many runs of handlers lie within one another. -/
def loops : List Layer → Nat
  | [] => 0
  | .loop :: below => loops below + 1
  | _ :: below => loops below

/-- A handler has begun and not ended. -/
def Stage.Running (g : Stage) (position : Nat) : Prop := ∃ rest, .program (some position) rest ∈ g.layers

section

variable {asked asked' : Prop} {who : Option Nat} {rest rest' : Program} {below layers : List Layer}

theorem Layered.mono (layered : Layered asked layers) (weaker : asked → asked') : Layered asked' layers := by
  induction layered with
  | gone => exact .gone
  | storing => exact .storing
  | releasing => exact .releasing
  | entry => exact .entry
  | between called => exact .between (weaker called)
  | loop called _ ih => exact .loop (weaker called) ih
  | handler _ ih => exact .handler ih

/-- A program that goes on takes the place of what was left of it. -/
theorem Layered.program (layered : Layered asked (.program who rest :: below)) :
    Layered asked (.program who rest' :: below) := by
  cases layered with
  | entry => exact .entry
  | handler within => exact .handler within

/-- Where no run of handlers is left, only what the handlers are run by is. -/
theorem Layered.outermost (layered : Layered asked (.program who rest :: below))
    (outermost : loops (.program who rest :: below) = 0) : who = none ∧ below = [.release, .store] := by
  cases layered with
  | entry => exact ⟨rfl, rfl⟩
  | handler => cases outermost

end

/-- What lies within what is as it should be, and the context knows how deep. -/
structure Nested (past : List Deed) (g : Stage) : Prop where
  layered : Layered (.enter ∈ past) g.layers
  depth : g.context.depth = loops g.layers

theorem Step.nested (step : Step setup inner chain g d g') (nested : Nested past g) : Nested (past ++ [d]) g' := by
  have layered := nested.layered.mono (List.mem_append_left [d])
  have depth := nested.depth
  cases step with
  | finish =>
    cases layered with
    | entry => exact ⟨.releasing, depth⟩
    | handler within => exact ⟨within, depth⟩
  | enter => exact ⟨.loop (by simp) layered.program, congrArg (· + 1) depth⟩
  | abort | edit | setPeer | respond | aside => exact ⟨layered.program, depth⟩
  | start => exact ⟨.handler layered, depth⟩
  | leave =>
    cases layered with
    | loop called within =>
      have left := congrArg (· - 1) depth
      split
      · rename_i outermost
        -- The packet goes back after the outermost run of handlers, which only the outermost program asked for.
        obtain ⟨rfl, rfl⟩ := within.outermost (left.symm.trans outermost)
        exact ⟨.between called, left⟩
      · exact ⟨within, left⟩
  | release | spare =>
    cases layered with
    | releasing => exact ⟨.storing, depth⟩
    | between => exact ⟨.entry, depth⟩
  | store =>
    cases layered with
    | storing => exact ⟨.gone, depth⟩

/-- A handler is running after a step if it was before, or is started in it. -/
theorem Step.running {k : Nat} (step : Step setup inner chain g d g') (running : g'.Running k) :
    g.Running k ∨ d = .start k := by
  obtain ⟨rest', mem⟩ := running
  cases step with
  | finish | release | spare | store => exact .inl ⟨rest', List.mem_cons_of_mem _ mem⟩
  | enter | abort | edit | setPeer | respond | aside =>
    simp only [List.mem_cons, reduceCtorEq, false_or] at mem
    rcases mem with same | mem
    · cases same
      exact .inl ⟨_, List.mem_cons_self⟩
    · exact .inl ⟨rest', List.mem_cons_of_mem _ mem⟩
  | start =>
    rcases List.mem_cons.mp mem with same | mem
    · cases same
      exact .inr rfl
    · exact .inl ⟨rest', mem⟩
  | leave =>
    refine .inl ⟨rest', List.mem_cons_of_mem _ ?_⟩
    split at mem
    · simpa using mem
    · exact mem

/-- A handler that was started is running until it is finished. -/
theorem Step.running_or_finish {k : Nat} (step : Step setup inner chain g d g') (running : g.Running k) :
    g'.Running k ∨ d = .finish (some k) := by
  obtain ⟨rest, mem⟩ := running
  cases step with
  | finish =>
    rcases List.mem_cons.mp mem with same | mem
    · cases same
      exact .inr rfl
    · exact .inl ⟨rest, mem⟩
  | enter =>
    rcases List.mem_cons.mp mem with same | mem
    · cases same
      exact .inl ⟨_, List.mem_cons_of_mem _ List.mem_cons_self⟩
    · exact .inl ⟨rest, List.mem_cons_of_mem _ (List.mem_cons_of_mem _ mem)⟩
  | abort | edit | setPeer | respond | aside =>
    rcases List.mem_cons.mp mem with same | mem
    · cases same
      exact .inl ⟨_, List.mem_cons_self⟩
    · exact .inl ⟨rest, List.mem_cons_of_mem _ mem⟩
  | start => exact .inl ⟨rest, List.mem_cons_of_mem _ mem⟩
  | leave =>
    refine .inl ⟨rest, ?_⟩
    have mem := (List.mem_cons.mp mem).resolve_left nofun
    split
    · exact List.mem_cons_of_mem _ mem
    · exact mem
  | release | spare | store => exact .inl ⟨rest, by simpa using mem⟩

/-! ### The cursor -/

/-- The handlers were started in their order, and the cursor is where the next one is. -/
structure Ordered (chain : List Program) (past : List Deed) (g : Stage) : Prop where
  inOrder : starts past = List.range (starts past).length
  within : (starts past).length ≤ chain.length
  calm : past.Pairwise fun earlier later => earlier = .abort → ∀ position, later ≠ .start position
  cursor : g.context.aborted = false → g.context.cursor = (starts past).length
  aborted : g.context.aborted = true ↔ .abort ∈ past

theorem Ordered.quiet (ordered : Ordered chain past g) (still : d.start? = none) (going : d ≠ .abort)
    (aborted : g'.context.aborted = g.context.aborted) (cursor : g'.context.cursor = g.context.cursor) :
    Ordered chain (past ++ [d]) g' := by
  have same : starts (past ++ [d]) = starts past := by rw [starts_snoc, still, Option.toList_none, List.append_nil]
  refine ⟨same ▸ ordered.inOrder, same ▸ ordered.within, ?_, ?_, ?_⟩
  · refine List.pairwise_append.mpr ⟨ordered.calm, List.pairwise_singleton _ _, ?_⟩
    rintro earlier - later mem - position rfl
    cases List.mem_singleton.mp mem
    cases still
  · rw [aborted, cursor, same]
    exact ordered.cursor
  · rw [aborted, ordered.aborted, List.mem_append, List.mem_singleton]
    exact (or_iff_left (Ne.symm going)).symm

theorem Step.ordered (short : chain.length < abortIndex) (step : Step setup inner chain g d g')
    (ordered : Ordered chain past g) : Ordered chain (past ++ [d]) g' := by
  cases step with
  | finish | enter | edit | setPeer | respond | aside | leave | release | spare | store =>
    exact ordered.quiet rfl (by simp) rfl rfl
  | abort =>
    have same : starts (past ++ [.abort]) = starts past := by rw [starts_snoc]; exact List.append_nil _
    refine ⟨same ▸ ordered.inOrder, same ▸ ordered.within, ?_, nofun, by simp [Context.abort]⟩
    refine List.pairwise_append.mpr ⟨ordered.calm, List.pairwise_singleton _ _, ?_⟩
    rintro earlier - later mem - position rfl
    cases List.mem_singleton.mp mem
  | @start handler below c s due =>
    -- Past the sentinel there is no handler to start.
    have going : c.aborted = false := by
      cases aborted : c.aborted
      · rfl
      · have beyond : chain[c.index]? = none := Context.Over.none (Nat.le_of_lt short) (.inl aborted)
        cases due.symm.trans beyond
    have index : c.index = (starts past).length := by
      rw [← ordered.cursor going]
      unfold Context.index
      rw [going]
      rfl
    have unaborted : .abort ∉ past := by
      rw [← ordered.aborted, going]
      decide
    have more : starts (past ++ [.start c.index]) = starts past ++ [c.index] := starts_snoc
    have length : (starts (past ++ [.start c.index])).length = (starts past).length + 1 := by
      rw [more, List.length_append, List.length_singleton]
    refine ⟨?_, ?_, ?_, fun _ => ?_, ?_⟩
    · rw [length, List.range_succ, ← ordered.inOrder, more, index]
    · rw [length, ← index]
      exact (List.getElem?_eq_some_iff.mp due).1
    · refine List.pairwise_append.mpr ⟨ordered.calm, List.pairwise_singleton _ _, ?_⟩
      rintro earlier mem later - rfl
      exact absurd mem unaborted
    · rw [length, ← ordered.cursor going]
      rfl
    · simp [Context.start, going, unaborted]

/-- Once handlers were asked for, some are being run or none is left. -/
def Exhausted (chain : List Program) (past : List Deed) (g : Stage) : Prop :=
  .enter ∈ past → loops g.layers = 0 → chain[g.context.index]? = none

theorem Step.exhausted (short : chain.length < abortIndex) (step : Step setup inner chain g d g')
    (exhausted : Exhausted chain past g) : Exhausted chain (past ++ [d]) g' := by
  intro mem outermost
  have before : d ≠ .enter → .enter ∈ past := fun other =>
    (List.mem_append.mp mem).resolve_right fun mem => other (List.mem_singleton.mp mem).symm
  cases step with
  | finish | edit | setPeer | respond | aside | release | spare | store => exact exhausted (before nofun) outermost
  | enter | start => cases outermost
  | abort => exact Context.Over.none (Nat.le_of_lt short) (.inl rfl)
  | leave none => exact none

/-- A handler that was started is running or finished. -/
def Followed (past : List Deed) (g : Stage) : Prop :=
  ∀ position ∈ starts past, .finish (some position) ∈ past ∨ g.Running position

theorem Step.followed (step : Step setup inner chain g d g') (followed : Followed past g) : Followed (past ++ [d]) g' := by
  intro position mem
  rw [starts_snoc] at mem
  rcases List.mem_append.mp mem with mem | mem
  · rcases followed position mem with finished | running
    · exact .inl (List.mem_append_left _ finished)
    · rcases step.running_or_finish running with running | rfl
      · exact .inr running
      · exact .inl (by simp)
  · cases step with
    | start =>
      rw [List.mem_singleton.mp mem]
      exact .inr ⟨_, List.mem_cons_self⟩
    | _ => cases mem

/-! ### The packet -/

/-- The packet is with the handlers, as they left it, and has yet to go back. -/
structure Out (c : Context) (past : List Deed) (g : Stage) : Prop where
  held : g.context.released = false
  none : releases past = []
  counted : g.context.counted = c.counted
  parcel : g.context.parcel = edits c.parcel past
  due : .release ∈ g.layers

/-- The packet was given back once, as the handlers left it; none of them is running, and none will. -/
structure Back (chain : List Program) (c : Context) (past : List Deed) (g : Stage) : Prop where
  released : g.context.released = true
  once : ∃ before p after, past = before ++ .release p :: after ∧ p = edits c.parcel before ∧
    releases before = [] ∧ releases after = []
  idle : ∀ position, ¬g.Running position
  spent : chain[g.context.index]? = none ∨ g.layers = [.store] ∨ g.layers = []

theorem releases_snoc_of_none (still : d.release? = none) : releases (past ++ [d]) = releases past := by
  rw [releases_snoc, still, Option.toList_none, List.append_nil]

theorem Step.out {c : Context} (step : Step setup inner chain g d g') (nested : Nested past g)
    (exhausted : Exhausted chain past g) (out : Out c past g) :
    Out c (past ++ [d]) g' ∨ Back chain c (past ++ [d]) g' := by
  obtain ⟨held, none, counted, parcel, due⟩ := out
  have layered := nested.layered
  cases step with
  | finish | enter | abort | edit | setPeer | respond | aside | start =>
    refine .inl ⟨held, (releases_snoc_of_none rfl).trans none, counted, ?_, ?_⟩
    · rw [edits_snoc, ← parcel]
      rfl
    · simpa using due
  | leave =>
    refine .inl ⟨held, (releases_snoc_of_none rfl).trans none, counted, ?_, ?_⟩
    · rw [edits_snoc, ← parcel]
      rfl
    · split <;> simp_all
  | @release below c' s =>
    refine .inr ⟨rfl, ⟨past, c'.parcel, [], rfl, parcel, none, rfl⟩, ?_, ?_⟩
    · cases layered with
      | releasing | between => simp [Stage.Running]
    · cases layered with
      -- After the outermost run of handlers no handler is left; at the very end only the context is.
      | releasing => exact .inr (.inl rfl)
      | between called => exact .inl (exhausted called rfl)
  | spare released => cases held.symm.trans released
  | store =>
    cases layered with
    | storing => simp at due

theorem Step.back {c : Context} (short : chain.length < abortIndex) (step : Step setup inner chain g d g')
    (back : Back chain c past g) : Back chain c (past ++ [d]) g' := by
  obtain ⟨released, ⟨before, p, after, rfl, edited, first, last⟩, idle, spent⟩ := back
  -- No handler is at the cursor any more, so none is started.
  have unstarted : ∀ position, d ≠ .start position := by
    rintro position rfl
    cases step with
    | start due =>
      rcases spent with none | same | same
      · cases due.symm.trans none
      · cases same
      · cases same
  have unreleased : d.release? = none := by
    cases step with
    | release held => cases held.symm.trans released
    | _ => rfl
  refine ⟨?_, ⟨before, p, after ++ [d], by simp, edited, first, ?_⟩, ?_, ?_⟩
  · cases step with
    | release => rfl
    | _ => exact released
  · rw [releases_snoc_of_none unreleased, last]
  · intro position running
    rcases step.running running with running | start
    · exact idle position running
    · exact unstarted position start
  · cases step with
    | abort => exact .inl (Context.Over.none (Nat.le_of_lt short) (.inl rfl))
    | leave none => exact .inl none
    | release held => cases held.symm.trans released
    | store =>
      refine spent.imp_right fun spent => .inr ?_
      simpa using spent
    | start => exact absurd rfl (unstarted _)
    | finish | enter | edit | setPeer | respond | aside | spare => exact .inl (spent.resolve_right (by simp))

/-! ### The context -/

/-- The context is put back once, last of all. -/
def Shelved (past : List Deed) (g : Stage) : Prop :=
  (g.layers ≠ [] ∧ .store ∉ past) ∨ g.layers = [] ∧ ∃ before, past = before ++ [.store] ∧ .store ∉ before

theorem Step.shelved (step : Step setup inner chain g d g') (nested : Nested past g) (shelved : Shelved past g) :
    Shelved (past ++ [d]) g' := by
  have layered := nested.layered
  rcases shelved with ⟨_, unstored⟩ | ⟨gone, -⟩
  · cases step with
    | store =>
      cases layered with
      | storing => exact .inr ⟨rfl, past, rfl, unstored⟩
    | enter | abort | edit | setPeer | respond | aside | start => exact .inl ⟨nofun, by simpa using unstored⟩
    | finish | release | spare => cases layered <;> exact .inl ⟨nofun, by simpa using unstored⟩
    | leave =>
      refine .inl ⟨?_, by simpa using unstored⟩
      cases layered
      split <;> nofun
  · cases step <;> cases gone

/-! ### The whole way -/

/-- What holds all along the way of a packet. -/
structure Disciplined (chain : List Program) (c : Context) (past : List Deed) (g : Stage) : Prop where
  nested : Nested past g
  ordered : Ordered chain past g
  exhausted : Exhausted chain past g
  followed : Followed past g
  packet : Out c past g ∨ Back chain c past g
  shelved : Shelved past g

theorem Step.disciplined {c : Context} (short : chain.length < abortIndex) (step : Step setup inner chain g d g')
    (before : Disciplined chain c past g) : Disciplined chain c (past ++ [d]) g' where
  nested := step.nested before.nested
  ordered := step.ordered short before.ordered
  exhausted := step.exhausted short before.exhausted
  followed := step.followed before.followed
  packet := by
    rcases before.packet with out | back
    · exact step.out before.nested before.exhausted out
    · exact .inr (step.back short back)
  shelved := step.shelved before.nested before.shelved

theorem disciplined_outset (entry : Program) (c : Context) (p : Parcel) (counted : Bool) (s : Engine) :
    Disciplined chain (c.bind p counted) [] (.outset entry (c.bind p counted) s) where
  nested := ⟨.entry, rfl⟩
  ordered := ⟨rfl, Nat.zero_le _, .nil, fun _ => rfl, by simp [Stage.outset, Context.bind]⟩
  exhausted := nofun
  followed := nofun
  packet := .inl ⟨rfl, rfl, rfl, rfl, by simp [Stage.outset]⟩
  shelved := .inl ⟨nofun, nofun⟩

theorem Steps.disciplined {entry : Program} {c : Context} {p : Parcel} {counted : Bool} {s : Engine}
    (short : chain.length < abortIndex) (run : Steps setup inner chain (.outset entry (c.bind p counted) s) ds g) :
    Disciplined chain (c.bind p counted) ds g :=
  run.keeps (fun before step => step.disciplined short before) (disciplined_outset entry c p counted s)

/-- Handlers were started in their order, each once, and none after an abort. -/
structure InTurn (chain : List Program) (ds : List Deed) : Prop where
  inOrder : starts ds = List.range (starts ds).length
  within : (starts ds).length ≤ chain.length
  calm : ds.Pairwise fun earlier later => earlier = .abort → ∀ position, later ≠ .start position

/-- A packet has come to the end of its way. -/
structure Settled (chain : List Program) (p : Parcel) (ds : List Deed) : Prop where
  all : .enter ∈ ds → .abort ∉ ds → starts ds = List.range chain.length
  finished : ∀ position ∈ starts ds, .finish (some position) ∈ ds
  /-- The packet was given back once, as it was left. -/
  released : ∃ before q after, ds = before ++ .release q :: after ∧ q = edits p before ∧
    releases before = [] ∧ releases after = []
  /-- The context was put back once. -/
  stored : ∃ before, ds = before ++ [.store] ∧ .store ∉ before

namespace Disciplined

variable {c : Context} {s : Engine}

theorem inTurn (holds : Disciplined chain c ds g) : InTurn chain ds :=
  ⟨holds.ordered.inOrder, holds.ordered.within, holds.ordered.calm⟩

theorem settled {c' : Context} (holds : Disciplined chain c ds ⟨[], c', s⟩) : Settled chain c.parcel ds where
  all asked unaborted := by
    have none : chain[c'.index]? = none := holds.exhausted asked rfl
    have going : c'.aborted = false := Bool.eq_false_iff.mpr (mt holds.ordered.aborted.mp unaborted)
    have index : c'.index = (starts ds).length := by
      rw [← holds.ordered.cursor going]
      simp [Context.index, going]
    -- The cursor counts the handlers that were started, and at its place there is none.
    have length := Nat.le_antisymm holds.ordered.within (index ▸ List.getElem?_eq_none_iff.mp none)
    rw [holds.ordered.inOrder, length]
  finished position mem := (holds.followed position mem).resolve_right fun ⟨_, mem⟩ => nomatch mem
  released := by
    rcases holds.packet with out | back
    · exact absurd out.due List.not_mem_nil
    · exact back.once
  stored := by
    rcases holds.shelved with ⟨some, -⟩ | ⟨-, stored⟩
    · exact absurd rfl some
    · exact stored

/-- While a handler is running the packet is with it, as it was left. -/
theorem out_of_running (holds : Disciplined chain c ds g) {position : Nat} (running : g.Running position) :
    Out c ds g := holds.packet.resolve_right fun back => back.idle position running

end Disciplined

/-- What is done on the way of a packet is known one step at a time, also when it stops short. All along the way the
    handlers that were started are the first ones of the chain, each started once and in order, and none after an
    abort; while one of them is running the packet is with it, as it was left, and has not gone back. At the end every
    handler has run, unless one was skipped or none was asked for; the packet has gone back once, and off the load that
    it counted towards; and the context has gone back once. -/
theorem handlers_take_their_turns (setup : Setup) (depth : Nat) {chain : List Program}
    (short : chain.length < abortIndex) (entry : Program) (c : Context) (p : Parcel) (counted : Bool) (s : Engine) :
    drive (next setup (nested setup depth) chain) (c.bind p counted) =
      drive (perform setup (nested setup depth) (next setup (nested setup depth) chain) (.next .done))
        (c.bind p counted) ∧
    (∀ t, drive (perform setup (nested setup depth) (next setup (nested setup depth) chain) entry)
        (c.bind p counted) s = .ok ((), t) ↔
      ∃ ds c', Steps setup (nested setup depth) chain (.outset entry (c.bind p counted) s) ds ⟨[], c', t⟩) ∧
    (∀ halt, drive (perform setup (nested setup depth) (next setup (nested setup depth) chain) entry)
        (c.bind p counted) s = .error halt ↔
      ∃ ds g, Steps setup (nested setup depth) chain (.outset entry (c.bind p counted) s) ds g ∧
        Stops setup (nested setup depth) g halt) ∧
    (∀ ds g, Steps setup (nested setup depth) chain (.outset entry (c.bind p counted) s) ds g →
      InTurn chain ds ∧
      (∀ position, g.Running position →
        g.context.released = false ∧ releases ds = [] ∧ g.context.parcel = edits p ds) ∧
      (g.layers = [] → Settled chain p ds ∧ (s.Orderly False →
        g.engine.load = s.load - (if counted then 1 else 0) ∧
        (g.engine.contexts.gets - g.engine.contexts.puts : Int) = s.contexts.gets - s.contexts.puts - 1))) := by
  have poised : Context.Poised chain 0 (c.bind p counted) := .inr (.inl rfl)
  have short' : chain.length ≤ abortIndex := Nat.le_of_lt short
  refine ⟨drive_next, fun t => ?_, fun halt => ?_, fun ds g run => ?_⟩
  · rw [drive_eq_ok_iff short' entry poised]
    exact exists_comm
  · rw [drive_eq_error_iff short' entry poised]
    exact ⟨fun ⟨g, ⟨ds, run⟩, stops⟩ => ⟨ds, g, run, stops⟩, fun ⟨ds, g, run, stops⟩ => ⟨g, ⟨ds, run⟩, stops⟩⟩
  have holds := run.disciplined short
  refine ⟨holds.inTurn, fun position running => ?_, fun last => ?_⟩
  · have out := holds.out_of_running running
    exact ⟨out.held, out.none, out.parcel⟩
  · obtain ⟨layers, c', t⟩ := g
    obtain rfl : layers = [] := last
    refine ⟨holds.settled, fun orderly => ?_⟩
    have done := (drive_eq_ok_iff short' entry poised).mpr ⟨c', ds, run⟩
    have steady : (nested setup depth).Steady (fun _ => True) False setup :=
      nested_steady False.elim trivial (fun _ _ _ _ => trivial) depth
    have calm : ∀ handler ∈ chain, False → handler.Quiet := fun _ _ h => h.elim
    have kept := ((drive_keeps (d := {}) (perform_holds steady (next_holds steady calm) entry False.elim)
      (c.bind p counted)) s orderly).of_ok done
    have load := kept.load
    have contexts := kept.contexts
    rw [holding_bind] at load contexts
    simp only [Due.parcel, Due.context] at load contexts
    dsimp only
    constructor
    · omega
    · omega

/-- Three handlers: the first asks for the others, the second skips the third. -/
def skippingChain : List Program := [.next .done, .edit (fun q => { q with reserved := 7 }) (.abort .done), .done]

theorem skipping_handlers_take_their_turns : skippingChain.length < abortIndex ∧
    ∃ ds c' t, Steps {} (nested {} 1) skippingChain
        (.outset (.next (.next .done)) (Context.bind {} {} true) { load := 1 }) ds ⟨[], c', t⟩ ∧
      t.journal.length = 3 ∧ Settled skippingChain {} ds ∧ t.load = 0 := by
  have short : skippingChain.length < abortIndex := by decide
  have turns := handlers_take_their_turns {} 1 short (.next (.next .done)) {} {} true { load := 1 }
  obtain ⟨-, ends, -, along⟩ := turns
  obtain ⟨t, done, noted⟩ : ∃ t, drive (perform {} (nested {} 1) (next {} (nested {} 1) skippingChain)
      (.next (.next .done))) (Context.bind {} {} true) { load := 1 } = .ok ((), t) ∧ t.journal.length = 3 := ⟨_, rfl, rfl⟩
  obtain ⟨ds, c', run⟩ := (ends t).mp done
  obtain ⟨settled, balance⟩ := (along ds _ run).2.2 rfl
  have orderly : Engine.Orderly False { load := 1 } := ⟨List.nodup_nil, nofun, False.elim⟩
  exact ⟨short, ds, c', t, run, noted, settled, (balance orderly).1⟩

end Engine
end Switchboard
