import Switchboard.Proofs.Engine.Upkeep

/-! Handlers at work, one thing at a time. While a packet goes along its chain, programs and runs of handlers lie within
    one another; a stage says which do, and what is left of each. The cursor of the context is a single position, which
    an abort moves beyond the end of every chain. What `drive` does all at once is one stage after another, and nothing
    else: each stage has one next stage, or stops short. -/

namespace Switchboard

/-- The position that an abort moves the cursor to; no chain in memory is as long. -/
def abortIndex : Nat := 0x7FFFFFFFFFFFFFFF

/-- The position of the cursor. -/
def Context.index (c : Context) : Nat := if c.aborted then abortIndex else c.cursor

/-- Something a program does on its connection that leaves its context alone, and how it goes on. -/
structure Aside where
  {Seen : Type}
  work : EngineM Seen
  rest : Seen → Program

/-- What a program does first, if that leaves its context alone and is no response. -/
def Program.aside? (setup : Setup) (inner : Inner) (c : Context) : Program → Option Aside
  | .look rest => some
    { work := do
        let load := (← get).load
        Engine.record (.looked load)
        pure load
      rest := fun load => rest { packet := c.parcel.toPacket, aborted := c.aborted, peer := c.peer, load } }
  | .receive frame rest => some { work := inner.receive frame, rest }
  | .close rest => some { work := inner.close, rest := fun _ => rest }
  | .notify m rest => some { work := Engine.notify setup inner m, rest }
  | .callAsync m callbacks rest => some { work := Engine.callAsync setup inner m callbacks, rest }
  | .report event rest => some { work := Engine.record (.event event), rest := fun _ => rest }
  | .reportCounts source rest => some
    { work := do Engine.record (.event { source with sight := .counts (← get).counts }), rest := fun _ => rest }
  | .done | .next _ | .abort _ | .edit _ _ | .setPeer _ _ | .respond _ _ _ => none

namespace Engine

/-! ### Stages -/

/-- What has begun and has yet to go on. -/
inductive Layer where
  /-- What is left of the program of a handler, by its position, or of what the handlers were run by. -/
  | program (who : Option Nat) (rest : Program)
  /-- A run of the handlers from the cursor on. -/
  | loop
  /-- The packet is to be given back. -/
  | release
  /-- The context is to be put back. -/
  | store

/-- How far a packet has come: what lies within what, the innermost first. -/
structure Stage where
  layers : List Layer
  context : Context
  engine : Engine

/-- One thing done. -/
inductive Deed where
  | start (position : Nat)
  | finish (who : Option Nat)
  | enter
  | leave
  | abort
  | edit (change : Packet → Packet)
  | setPeer (peer : Option Peer)
  | respond (request : Packet) (content : Except Fault Content) (metadata : Metadata) (result : Except Fault Unit)
  | aside
  | release (p : Parcel)
  /-- The packet had been given back before. -/
  | spare
  | store

section

variable (setup : Setup) (inner : Inner) (chain : List Program)

/-- One stage comes after another. -/
inductive Step : Stage → Deed → Stage → Prop where
  | finish {who below c s} : Step ⟨.program who .done :: below, c, s⟩ (.finish who) ⟨below, c, s⟩
  | enter {who rest below c s} :
    Step ⟨.program who (.next rest) :: below, c, s⟩ .enter ⟨.loop :: .program who rest :: below, c.enter, s⟩
  | abort {who rest below c s} :
    Step ⟨.program who (.abort rest) :: below, c, s⟩ .abort ⟨.program who rest :: below, c.abort, s⟩
  | edit {who change rest below c s} : Step ⟨.program who (.edit change rest) :: below, c, s⟩ (.edit change)
      ⟨.program who rest :: below, c.edit change, s⟩
  | setPeer {who peer rest below c s} : Step ⟨.program who (.setPeer peer rest) :: below, c, s⟩ (.setPeer peer)
      ⟨.program who rest :: below, c.setPeer peer, s⟩
  | respond {who content metadata rest below c s result t}
    (responded : Engine.respond setup inner c content metadata s = .ok (result, t)) :
    Step ⟨.program who (.respond content metadata rest) :: below, c, s⟩
      (.respond c.parcel.toPacket content metadata result) ⟨.program who (rest result) :: below, c, t⟩
  | aside {who p below c s a seen t} (first : p.aside? setup inner c = some a) (done : a.work s = .ok (seen, t)) :
    Step ⟨.program who p :: below, c, s⟩ .aside ⟨.program who (a.rest seen) :: below, c, t⟩
  | start {handler below c s} (due : chain[c.index]? = some handler) : Step ⟨.loop :: below, c, s⟩ (.start c.index)
      ⟨.program (some c.index) handler :: .loop :: below, c.start, s.note (.started c.index)⟩
  | leave {below c s} (none : chain[c.index]? = none) : Step ⟨.loop :: below, c, s⟩ .leave
      ⟨if c.leave.depth = 0 then .release :: below else below, c.leave, s⟩
  | release {below c s} (held : c.released = false) : Step ⟨.release :: below, c, s⟩ (.release c.parcel)
      ⟨below, c.release,
        { s with
          issuer := s.issuer.put c.parcel, load := if c.counted then s.load - 1 else s.load
          journal := .released c.parcel.toPacket :: s.journal }⟩
  | spare {below c s} (released : c.released = true) : Step ⟨.release :: below, c, s⟩ .spare ⟨below, c, s⟩
  | store {below c s} : Step ⟨.store :: below, c, s⟩ .store ⟨below, c, { s with contexts := s.contexts.put c }⟩

/-- A stage has none after it, because what comes next stops short. -/
inductive Stops : Stage → Halt → Prop where
  | respond {who content metadata rest below c s halt}
    (stopped : Engine.respond setup inner c content metadata s = .error halt) :
    Stops ⟨.program who (.respond content metadata rest) :: below, c, s⟩ halt
  | aside {who p below c s a halt} (first : p.aside? setup inner c = some a) (stopped : a.work s = .error halt) :
    Stops ⟨.program who p :: below, c, s⟩ halt

/-- One stage comes some steps after another. -/
inductive Steps : Stage → List Deed → Stage → Prop where
  | nil {g} : Steps g [] g
  | cons {g d g' ds g''} (first : Step setup inner chain g d g') (rest : Steps g' ds g'') : Steps g (d :: ds) g''

/-- One stage comes after another. -/
def Reaches (g g' : Stage) : Prop := ∃ ds, Steps setup inner chain g ds g'

/-- What follows a stage stops short. -/
def Halts (g : Stage) (halt : Halt) : Prop := ∃ g', Reaches setup inner chain g g' ∧ Stops setup inner g' halt

end

variable {setup : Setup} {inner : Inner} {chain : List Program} {g g' g'' : Stage} {d d' : Deed} {ds ds' : List Deed}

namespace Steps

theorem trans (first : Steps setup inner chain g ds g') (second : Steps setup inner chain g' ds' g'') :
    Steps setup inner chain g (ds ++ ds') g'' := by
  induction first with
  | nil => exact second
  | cons step _ ih => exact .cons step (ih second)

/-- What every step keeps of a stage and of what was done before it. -/
theorem keeps {P : List Deed → Stage → Prop}
    (step : ∀ {past g d g'}, P past g → Step setup inner chain g d g' → P (past ++ [d]) g')
    (run : Steps setup inner chain g ds g') {past : List Deed} (holds : P past g) : P (past ++ ds) g' := by
  -- What was done before grows along the run, so the past is generalized.
  induction run generalizing past with
  | nil => rwa [List.append_nil]
  | @cons _ d _ ds _ first _ ih =>
    have after := ih (step holds first)
    rwa [List.append_assoc] at after

end Steps

/-! ### One stage has one next stage -/

theorem Step.unique (first : Step setup inner chain g d g') (second : Step setup inner chain g d' g'') : g' = g'' := by
  cases first with
  | finish | enter | abort | edit | setPeer =>
    cases second with
    | aside first => cases first
    | _ => rfl
  | respond responded =>
    cases second with
    | respond responded' =>
      cases responded.symm.trans responded'
      rfl
    | aside first => cases first
  | aside first done =>
    cases second with
    | aside first' done' =>
      cases first.symm.trans first'
      cases done.symm.trans done'
      rfl
    | _ => cases first
  | start due =>
    cases second with
    | start due' =>
      cases due.symm.trans due'
      rfl
    | leave none => cases due.symm.trans none
  | leave none =>
    cases second with
    | start due => cases due.symm.trans none
    | leave => rfl
  | release held =>
    cases second with
    | release => rfl
    | spare released => cases held.symm.trans released
  | spare released =>
    cases second with
    | release held => cases held.symm.trans released
    | spare => rfl
  | store =>
    cases second with
    | store => rfl

/-- Nothing comes after a stage. -/
def Stage.Last (setup : Setup) (inner : Inner) (chain : List Program) (g : Stage) : Prop :=
  ∀ d g', ¬Step setup inner chain g d g'

theorem last_nil {c : Context} {s : Engine} : Stage.Last setup inner chain ⟨[], c, s⟩ := by
  intro d g' step
  cases step

theorem Stops.last {halt : Halt} (stops : Stops setup inner g halt) : g.Last setup inner chain := by
  intro d g' step
  cases stops with
  | respond stopped =>
    cases step with
    | respond responded => cases responded.symm.trans stopped
    | aside first => cases first
  | aside first stopped =>
    cases step with
    | aside first' done =>
      cases first.symm.trans first'
      cases done.symm.trans stopped
    | _ => cases first

/-- There is one last stage. -/
theorem Reaches.unique (first : Reaches setup inner chain g g') (second : Reaches setup inner chain g g'')
    (last : g'.Last setup inner chain) (last' : g''.Last setup inner chain) : g' = g'' := by
  obtain ⟨ds, first⟩ := first
  obtain ⟨ds', second⟩ := second
  induction first generalizing ds' with
  | nil =>
    cases second with
    | nil => rfl
    | cons step _ => exact absurd step (last _ _)
  | cons step _ ih =>
    cases second with
    | nil => exact absurd step (last' _ _)
    | cons step' rest =>
      cases step.unique step'
      exact ih last _ rest

theorem Stops.unique {halt halt' : Halt} (first : Stops setup inner g halt) (second : Stops setup inner g halt') :
    halt = halt' := by
  cases first with
  | respond stopped =>
    cases second with
    | respond stopped' => exact Except.error.inj (stopped.symm.trans stopped')
    | aside first => cases first
  | aside first stopped =>
    cases second with
    | respond => cases first
    | aside first' stopped' =>
      cases first.symm.trans first'
      exact Except.error.inj (stopped.symm.trans stopped')

/-! ### Work as stages -/

theorem Reaches.refl : Reaches setup inner chain g g := ⟨[], .nil⟩

theorem Reaches.step (first : Step setup inner chain g d g') (rest : Reaches setup inner chain g' g'') :
    Reaches setup inner chain g g'' := by
  obtain ⟨ds, rest⟩ := rest
  exact ⟨d :: ds, .cons first rest⟩

theorem Reaches.trans (first : Reaches setup inner chain g g') (rest : Reaches setup inner chain g' g'') :
    Reaches setup inner chain g g'' := by
  obtain ⟨ds, first⟩ := first
  obtain ⟨ds', rest⟩ := rest
  exact ⟨ds ++ ds', first.trans rest⟩

theorem Reaches.halts {halt : Halt} (first : Reaches setup inner chain g g') (rest : Halts setup inner chain g' halt) :
    Halts setup inner chain g halt := by
  obtain ⟨g'', later, stops⟩ := rest
  exact ⟨g'', first.trans later, stops⟩

/-- Work on a context does what comes after a stage, until only some layers are left. -/
def Plays (setup : Setup) (inner : Inner) (chain : List Program) (post : Context → Prop) (g : Stage)
    (below : List Layer) (m : EngineM Context) (s : Engine) : Prop :=
  Ends (Halts setup inner chain g) m s fun c t => Reaches setup inner chain g ⟨below, c, t⟩ ∧ post c

section

variable {post : Context → Prop} {below : List Layer} {m : EngineM Context} {c : Context} {s : Engine}

/-- What was done before the work comes first. -/
theorem Plays.after (reaches : Reaches setup inner chain g g') (plays : Plays setup inner chain post g' below m s) :
    Plays setup inner chain post g below m s where
  of_ok done := ⟨reaches.trans (plays.of_ok done).1, (plays.of_ok done).2⟩
  of_error stopped := reaches.halts (plays.of_error stopped)

theorem Plays.step (first : Step setup inner chain g d g') (plays : Plays setup inner chain post g' below m s) :
    Plays setup inner chain post g below m s := .after (.step first .refl) plays

/-- A context whose cursor is at a position, or at the end of its chain, or beyond. -/
def Context.Poised (chain : List Program) (position : Nat) (c : Context) : Prop :=
  c.aborted = true ∨ c.cursor = position ∨ c.cursor = chain.length

/-- A context with no handler left to run. -/
def Context.Over (chain : List Program) (c : Context) : Prop := c.aborted = true ∨ c.cursor = chain.length

theorem Context.Over.poised {position : Nat} (done : Context.Over chain c) : Context.Poised chain position c :=
  done.imp_right .inr

/-- Past the end of the chain, or aborted, the cursor is at no handler. -/
theorem Context.Over.none (short : chain.length ≤ abortIndex) (done : Context.Over chain c) :
    chain[c.index]? = none := by
  refine List.getElem?_eq_none ?_
  unfold Context.index
  rcases done with aborted | cursor
  · rwa [if_pos aborted]
  · split
    · exact short
    · exact Nat.le_of_eq cursor.symm

/-! ### Programs -/

theorem perform_aside {p : Program} {a : Aside} {onNext : Context → EngineM Context}
    (first : p.aside? setup inner c = some a) :
    perform setup inner onNext p c = a.work >>= fun seen => perform setup inner onNext (a.rest seen) c := by
  cases p <;> cases first <;> rfl

/-- Something done aside is done by the program and by the stage alike. -/
theorem Plays.aside {who : Option Nat} {p : Program} {a : Aside} {onNext : Context → EngineM Context}
    (first : p.aside? setup inner c = some a)
    (plays : ∀ seen t, Plays setup inner chain post ⟨.program who (a.rest seen) :: below, c, t⟩ below
      (perform setup inner onNext (a.rest seen) c) t) :
    Plays setup inner chain post ⟨.program who p :: below, c, s⟩ below (perform setup inner onNext p c) s := by
  rw [perform_aside first]
  have begun : Ends (Halts setup inner chain ⟨.program who p :: below, c, s⟩) a.work s fun seen t =>
      Step setup inner chain ⟨.program who p :: below, c, s⟩ .aside ⟨.program who (a.rest seen) :: below, c, t⟩ :=
    ⟨fun done => .aside first done, fun stopped => ⟨_, .refl, .aside first stopped⟩⟩
  exact begun.bind fun seen t step => (plays seen t).step step

theorem perform_plays {position : Nat} {onNext : Context → EngineM Context}
    (next : ∀ c s below, Context.Poised chain position c →
      Plays setup inner chain (Context.Over chain) ⟨.loop :: below, c.enter, s⟩ below (onNext c) s) :
    ∀ (p : Program) (who : Option Nat) (c : Context) (s : Engine) (below : List Layer), Context.Poised chain position c →
      Plays setup inner chain (Context.Poised chain position) ⟨.program who p :: below, c, s⟩ below
        (perform setup inner onNext p c) s
  | .done, who, c, s, below, poised => .of_eq rfl ⟨.step .finish .refl, poised⟩
  | .next rest, who, c, s, below, poised => by
    -- What the handler goes on with ends with no handler left to run, and only then does it go on itself.
    refine Plays.step .enter ((next c s _ poised).bind fun c' t ⟨reaches, spent⟩ => Plays.after reaches ?_)
    exact perform_plays next rest who c' t below spent.poised
  | .abort rest, who, c, s, below, _ => .step .abort (perform_plays next rest who c.abort s below (.inl rfl))
  | .edit change rest, who, c, s, below, poised =>
    .step .edit (perform_plays next rest who (c.edit change) s below poised)
  | .setPeer peer rest, who, c, s, below, poised =>
    .step .setPeer (perform_plays next rest who (c.setPeer peer) s below poised)
  | .respond content metadata rest, who, c, s, below, poised => by
    have begun : Ends (Halts setup inner chain ⟨.program who (.respond content metadata rest) :: below, c, s⟩)
        (respond setup inner c content metadata) s fun result t => Step setup inner chain
          ⟨.program who (.respond content metadata rest) :: below, c, s⟩
          (.respond c.parcel.toPacket content metadata result) ⟨.program who (rest result) :: below, c, t⟩ :=
      ⟨fun done => .respond done, fun stopped => ⟨_, .refl, .respond stopped⟩⟩
    exact begun.bind fun result t step => Plays.step step (perform_plays next (rest result) who c t below poised)
  | .look rest, who, c, _, below, poised => .aside rfl fun _ t => perform_plays next (rest _) who c t below poised
  | .receive _ rest, who, c, _, below, poised => .aside rfl fun _ t => perform_plays next (rest _) who c t below poised
  | .close rest, who, c, _, below, poised => .aside rfl fun _ t => perform_plays next rest who c t below poised
  | .notify _ rest, who, c, _, below, poised => .aside rfl fun _ t => perform_plays next (rest _) who c t below poised
  | .callAsync _ _ rest, who, c, _, below, poised => .aside rfl fun _ t => perform_plays next (rest _) who c t below poised
  | .report _ rest, who, c, _, below, poised => .aside rfl fun _ t => perform_plays next rest who c t below poised
  | .reportCounts _ rest, who, c, _, below, poised => .aside rfl fun _ t => perform_plays next rest who c t below poised

/-! ### Chains -/

/-- The packet is given back, unless it was before. -/
theorem release_plays {spent : Context → Prop} (kept : spent c → spent c.release) (holds : spent c) :
    Plays setup inner chain spent ⟨.release :: below, c, s⟩ below (release c) s := by
  unfold release
  split
  · rename_i released
    exact .of_eq rfl ⟨.step (.spare released) .refl, holds⟩
  · rename_i held
    exact .of_eq rfl ⟨.step (.release (by simpa using held)) .refl, kept holds⟩

/-- A run of handlers ends, and the packet is given back when it is the outermost. -/
theorem within_plays (short : chain.length ≤ abortIndex) {run : Context → EngineM Context}
    (plays : Plays setup inner chain (Context.Over chain) ⟨.loop :: below, c.enter, s⟩ (.loop :: below) (run c.enter) s) :
    Plays setup inner chain (Context.Over chain) ⟨.loop :: below, c.enter, s⟩ below (within run c) s := by
  unfold within
  refine plays.bind fun c' t ⟨reaches, spent⟩ => Plays.after reaches (Plays.step (.leave (spent.none short)) ?_)
  dsimp only
  split
  · exact release_plays id spent
  · exact .of_eq rfl ⟨.refl, spent⟩

theorem runFrom_plays (short : chain.length ≤ abortIndex) (handlers : List Program) :
    ∀ (before : List Program) (c : Context) (s : Engine) (below : List Layer), chain = before ++ handlers →
      Context.Poised chain before.length c → Plays setup inner chain (Context.Over chain) ⟨.loop :: below, c, s⟩
        (.loop :: below) (runFrom setup inner before.length handlers c) s := by
  induction handlers with
  | nil =>
    intro before c s below whole poised
    have length : chain.length = before.length := by rw [whole, List.append_nil]
    refine .of_eq rfl ⟨.refl, ?_⟩
    unfold Context.Over
    rcases poised with aborted | cursor | cursor
    · exact .inl aborted
    · exact .inr (cursor.trans length.symm)
    · exact .inr cursor
  | cons handler rest ih =>
    -- The handlers run through were taken off the front, and the cursor counts them.
    intro before c s below whole poised
    have later := fun c s below => ih (before ++ [handler]) c s below (by simp [whole])
    rw [List.length_append, List.length_singleton] at later
    unfold runFrom
    split
    · rename_i due
      obtain ⟨aborted, cursor⟩ : c.aborted = false ∧ c.cursor = before.length := by simpa [Context.isDue] using due
      have index : c.index = before.length := by simp [Context.index, aborted, cursor]
      have found : chain[c.index]? = some handler := by rw [index, whole, List.getElem?_append_right (Nat.le_refl _)]; simp
      have begun : Step setup inner chain ⟨.loop :: below, c, s⟩ (.start c.index) _ := .start found
      rw [index] at begun
      refine Ends.step rfl (Plays.step begun ?_)
      have inside : ∀ c s below, Context.Poised chain (before.length + 1) c →
          Plays setup inner chain (Context.Over chain) ⟨.loop :: below, c.enter, s⟩ below
            (within (runFrom setup inner (before.length + 1) rest) c) s :=
        fun c s below poised => within_plays short (later c.enter s below poised)
      have handled := perform_plays inside handler (some before.length) c.start (s.note (.started before.length))
        (.loop :: below) (.inr (.inl (congrArg (· + 1) cursor)))
      exact handled.bind fun c' t ⟨reaches, poised⟩ => Plays.after reaches (later c' t below poised)
    · rename_i idle
      refine .of_eq rfl ⟨.refl, ?_⟩
      have idle : c.aborted = false → c.cursor ≠ before.length := by simpa [Context.isDue] using idle
      unfold Context.Over
      rcases poised with aborted | cursor | cursor
      · exact .inl aborted
      · cases aborted : c.aborted
        · exact absurd cursor (idle aborted)
        · exact .inl rfl
      · exact .inr cursor

theorem next_plays (short : chain.length ≤ abortIndex) (c : Context) (s : Engine) (below : List Layer)
    (poised : Context.Poised chain 0 c) : Plays setup inner chain (Context.Over chain) ⟨.loop :: below, c.enter, s⟩ below
      (next setup inner chain c) s :=
  within_plays short (runFrom_plays short chain [] c.enter s below rfl poised)

/-! ### The whole way -/

/-- Where a packet sets out: what the handlers are run by, then the packet and the context go back. -/
def Stage.outset (entry : Program) (c : Context) (s : Engine) : Stage := ⟨[.program none entry, .release, .store], c, s⟩

theorem drive_plays (short : chain.length ≤ abortIndex) (entry : Program) (poised : Context.Poised chain 0 c) :
    Ends (Halts setup inner chain (.outset entry c s)) (drive (perform setup inner (next setup inner chain) entry) c) s
      fun _ t => ∃ c', Reaches setup inner chain (.outset entry c s) ⟨[], c', t⟩ := by
  have inside : ∀ c s below, Context.Poised chain 0 c →
      Plays setup inner chain (Context.Over chain) ⟨.loop :: below, c.enter, s⟩ below (next setup inner chain c) s :=
    next_plays short
  have performed := perform_plays inside entry none c s [.release, .store] poised
  refine performed.bind fun c' t ⟨reaches, _⟩ => ?_
  have released : Plays setup inner chain (fun _ => True) (.outset entry c s) [.store] (release c') t :=
    .after reaches (release_plays id trivial)
  refine released.bind fun c'' u ⟨reaches, _⟩ => .of_eq rfl ⟨c'', reaches.trans ?_⟩
  exact .step .store .refl

/-- The way of a packet is what is done on it: it ends in a state just when there is nothing left to do in that state. -/
theorem drive_eq_ok_iff (short : chain.length ≤ abortIndex) (entry : Program) (poised : Context.Poised chain 0 c)
    {t : Engine} : drive (perform setup inner (next setup inner chain) entry) c s = .ok ((), t) ↔
      ∃ c', Reaches setup inner chain (.outset entry c s) ⟨[], c', t⟩ := by
  have played : Ends (Halts setup inner chain (.outset entry c s)) _ s _ := drive_plays short entry poised
  refine ⟨played.of_ok, fun ⟨c', reaches⟩ => ?_⟩
  rcases result : drive (perform setup inner (next setup inner chain) entry) c s with halt | ⟨_, t'⟩
  · -- A stage with nothing left to do does not stop short, and there is one last stage.
    obtain ⟨g, before, stops⟩ := played.of_error result
    cases before.unique reaches stops.last last_nil
    cases stops
  · obtain ⟨c'', reaches'⟩ := played.of_ok result
    cases reaches.unique reaches' last_nil last_nil
    rfl

theorem drive_eq_error_iff (short : chain.length ≤ abortIndex) (entry : Program) (poised : Context.Poised chain 0 c)
    {halt : Halt} : drive (perform setup inner (next setup inner chain) entry) c s = .error halt ↔
      Halts setup inner chain (.outset entry c s) halt := by
  have played : Ends (Halts setup inner chain (.outset entry c s)) _ s _ := drive_plays short entry poised
  refine ⟨played.of_error, fun ⟨g, before, stops⟩ => ?_⟩
  rcases result : drive (perform setup inner (next setup inner chain) entry) c s with halt' | ⟨_, t⟩
  · obtain ⟨g', before', stops'⟩ := played.of_error result
    cases before.unique before' stops.last stops'.last
    rw [stops.unique stops']
  · obtain ⟨c', reaches⟩ := played.of_ok result
    cases before.unique reaches stops.last last_nil
    cases stops

/-- A packet that goes along its chain by itself goes as if run by what asks for the handlers once. -/
theorem drive_next : drive (next setup inner chain) c =
    drive (perform setup inner (next setup inner chain) (.next .done)) c := by
  unfold drive
  have same : perform setup inner (next setup inner chain) (.next .done) c = next setup inner chain c :=
    bind_pure (next setup inner chain c)
  rw [same]

end

end Engine
end Switchboard
