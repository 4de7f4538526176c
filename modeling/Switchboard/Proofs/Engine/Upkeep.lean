import Switchboard.Proofs.Engine.Numbers
import Switchboard.Proofs.Engine.Steps

/-! What work within a connection leaves as it was. A handler, a frame that arrives and the closing of a
    connection take packets, contexts and load, and give back as much as they took; they leave the calls
    in progress alone. Unlike the moves, the statements here say of work that does not come to its end
    why it does not. -/

namespace Switchboard

/-- A handler makes no asynchronous calls. -/
def Program.Quiet : Program → Prop
  | .done => True
  | .next rest | .abort rest | .edit _ rest | .setPeer _ rest | .close rest | .report _ rest | .reportCounts _ rest => rest.Quiet
  | .look rest => ∀ view, (rest view).Quiet
  | .respond _ _ rest | .receive _ rest | .notify _ rest => ∀ result, (rest result).Quiet
  | .callAsync _ _ _ => False

/-- No handler of a connection makes asynchronous calls. -/
structure Setup.Quiet (setup : Setup) : Prop where
  router : ∀ {p chain}, setup.router.resolve p = .ok chain → ∀ handler ∈ chain, handler.Quiet
  filter : ∀ p, (setup.responseFilter p).Quiet

/-- Callbacks make no asynchronous calls. -/
def Pending.Quiet (pending : Pending) : Prop := ∀ handler ∈ pending.callbacks, handler.Quiet

namespace Engine

variable {α β : Type} {stops : Halt → Prop} {quiet : Prop} {s t u : Engine}

/-! ### Work that ends or stops short -/

/-- Work has to stop short: it lies too deep, or the numbers are used up. -/
def Forced : Halt → Prop
  | .tooDeep => True
  | .sessionInUse _ drawn => numbers ≤ drawn

/-- Work comes to an end of some kind, or stops short for one of some reasons. -/
structure Ends (stops : Halt → Prop) (m : EngineM α) (s : Engine) (post : α → Engine → Prop) : Prop where
  of_ok : ∀ {a t}, m s = .ok (a, t) → post a t
  of_error : ∀ {halt}, m s = .error halt → stops halt

theorem Ends.of_eq {m : EngineM α} {post : α → Engine → Prop} {a : α} (h : m s = .ok (a, t)) (holds : post a t) :
    Ends stops m s post where
  of_ok done := by
    cases h.symm.trans done
    exact holds
  of_error stopped := nomatch h.symm.trans stopped

theorem Ends.of_stop {m : EngineM α} {post : α → Engine → Prop} {halt : Halt} (stopped : m s = .error halt)
    (allowed : stops halt) : Ends stops m s post where
  of_ok done := nomatch stopped.symm.trans done
  of_error again := by
    cases stopped.symm.trans again
    exact allowed

theorem Ends.mono {m : EngineM α} {post post' : α → Engine → Prop} (h : Ends stops m s post)
    (weaker : ∀ a t, post a t → post' a t) : Ends stops m s post' :=
  ⟨fun done => weaker _ _ (h.of_ok done), h.of_error⟩

theorem Ends.step {m : EngineM α} {f : α → EngineM β} {post : β → Engine → Prop} {a : α} (first : m s = .ok (a, t))
    (rest : Ends stops (f a) t post) : Ends stops (m >>= f) s post := by
  constructor
  · intro b u done
    exact rest.of_ok ((bind_of_ok first).symm.trans done)
  · intro halt stopped
    exact rest.of_error ((bind_of_ok first).symm.trans stopped)

theorem Ends.bind {m : EngineM α} {f : α → EngineM β} {mid : α → Engine → Prop} {post : β → Engine → Prop}
    (first : Ends stops m s mid) (rest : ∀ a t, mid a t → Ends stops (f a) t post) :
    Ends stops (m >>= f) s post := by
  rcases result : m s with halt | ⟨a, t⟩
  · refine .of_stop ?_ (first.of_error result)
    change (m s >>= fun x => f x.1 x.2) = _
    rw [result]
    rfl
  · exact .step result (rest a t (first.of_ok result))

/-! ### What is taken and given back -/

/-- What work under way has taken and has yet to give back. -/
structure Due where
  load : Int := 0
  contexts : Int := 0
  packets : Int := 0

namespace Due

/-- One packet more. -/
def parcel (d : Due) : Due := { d with packets := d.packets + 1 }

/-- One context more. -/
def context (d : Due) : Due := { d with contexts := d.contexts + 1 }

/-- What comes with a context: its packet, which may count towards the load, until it is given back. -/
def holding (d : Due) (c : Context) : Due :=
  if c.released then d
  else { d with packets := d.packets + 1, load := d.load + if c.counted then 1 else 0 }

theorem holding_of_released {d : Due} {c : Context} (h : c.released = true) : d.holding c = d := if_pos h

end Due

/-- Packets out of the pool that nothing in the table or among the replies accounts for. -/
def afield (s : Engine) : Int :=
  s.issuer.pool.gets - s.issuer.pool.puts - (pledges s.table.entries).length - s.mail.length

/-- What holds of a connection whose sessions were registered under numbers drawn for them. -/
structure Orderly (quiet : Prop) (s : Engine) : Prop where
  keyed : s.table.Keyed
  drawn : ∀ e ∈ s.table.entries, ∃ k, 1 ≤ k ∧ k ≤ s.issuer.drawn ∧ e.1 = UInt64.ofNat k
  calm : quiet → ∀ pending ∈ pledges s.table.entries, pending.Quiet

theorem Orderly.congr (orderly : s.Orderly quiet) (entries : t.table.entries = s.table.entries)
    (drawn : s.issuer.drawn ≤ t.issuer.drawn) : t.Orderly quiet where
  keyed := by
    unfold SessionTable.Keyed
    rw [entries]
    exact orderly.keyed
  drawn e he := by
    obtain ⟨k, first, last, number⟩ := orderly.drawn e (entries ▸ he)
    exact ⟨k, first, last.trans drawn, number⟩
  calm hushed := by
    rw [entries]
    exact orderly.calm hushed

theorem Orderly.sublist (orderly : s.Orderly quiet) (entries : t.table.entries.Sublist s.table.entries)
    (drawn : t.issuer.drawn = s.issuer.drawn) : t.Orderly quiet where
  keyed := orderly.keyed.sublist (entries.map _)
  drawn e he := by
    rw [drawn]
    exact orderly.drawn e (entries.subset he)
  calm hushed pending mem := orderly.calm hushed pending ((entries.filterMap _).subset mem)

/-- From one state to another nothing is lost but what is due. -/
structure Steady (quiet : Prop) (s : Engine) (d : Due) (t : Engine) (d' : Due) : Prop where
  calls : t.calls = s.calls
  waits : s.waits <+: t.waits
  load : t.load + d.load = s.load + d'.load
  contexts : (t.contexts.gets - t.contexts.puts : Int) + d.contexts =
    (s.contexts.gets - s.contexts.puts : Int) + d'.contexts
  packets : quiet → t.afield + d.packets = s.afield + d'.packets
  orderly : t.Orderly quiet

namespace Steady

variable {d d' d'' : Due}

theorem refl (orderly : s.Orderly quiet) (d : Due) : Steady quiet s d s d where
  calls := rfl
  waits := List.prefix_rfl
  load := rfl
  contexts := rfl
  packets _ := rfl
  orderly := orderly

theorem trans (first : Steady quiet s d t d') (second : Steady quiet t d' u d'') : Steady quiet s d u d'' where
  calls := second.calls.trans first.calls
  waits := first.waits.trans second.waits
  load := by
    have := first.load
    have := second.load
    omega
  contexts := by
    have := first.contexts
    have := second.contexts
    omega
  packets hushed := by
    have := first.packets hushed
    have := second.packets hushed
    omega
  orderly := second.orderly

end Steady

/-- Work is due some things when it begins and others when it ends, wherever it begins. -/
def Keeps (stops : Halt → Prop) (quiet : Prop) (m : EngineM α) (d : Due) (d' : α → Due) : Prop :=
  ∀ s : Engine, s.Orderly quiet → Ends stops m s fun a t => Steady quiet s d t (d' a)

namespace Keeps

variable {d : Due} {d' : α → Due} {d'' : β → Due}

theorem pure {a : α} : Keeps stops quiet (pure a) d fun _ => d := fun _ orderly => .of_eq rfl (.refl orderly _)

theorem pure_context {c : Context} : Keeps stops quiet (Pure.pure c) (d.holding c) fun c' => d.holding c' :=
  fun _ orderly => .of_eq rfl (.refl orderly _)

theorem get : Keeps stops quiet get d fun _ => d := fun _ orderly => .of_eq rfl (.refl orderly _)

theorem bind {m : EngineM α} {f : α → EngineM β} (first : Keeps stops quiet m d d')
    (rest : ∀ a, Keeps stops quiet (f a) (d' a) d'') : Keeps stops quiet (m >>= f) d d'' :=
  fun s orderly => (first s orderly).bind fun a t mid => (rest a t mid.orderly).mono fun _ _ => mid.trans

end Keeps

/-! ### Small steps -/

section

variable {d : Due}

theorem record_keeps (e : Entry) : Keeps stops quiet (record e) d fun _ => d :=
  fun _ orderly => .of_eq rfl ⟨rfl, List.prefix_rfl, rfl, rfl, fun _ => rfl, orderly.congr rfl (Nat.le_refl _)⟩

theorem afield_get {drawn : Nat} : afield { s with issuer := { s.issuer.get.2 with drawn } } = s.afield + 1 := by
  unfold afield
  dsimp only
  rw [Issuer.gets_get, Issuer.puts_get]
  omega

theorem steady_get (orderly : s.Orderly quiet) {drawn : Nat} (later : s.issuer.drawn ≤ drawn) :
    Steady quiet s d { s with issuer := { s.issuer.get.2 with drawn } } d.parcel where
  calls := rfl
  waits := List.prefix_rfl
  load := rfl
  contexts := rfl
  packets _ := by
    rw [afield_get]
    change _ = _ + (d.packets + 1)
    omega
  orderly := orderly.congr rfl later

theorem takeParcel_keeps : Keeps stops quiet takeParcel d fun _ => d.parcel :=
  fun _ orderly => .of_eq rfl (steady_get orderly (Nat.le_refl _))

theorem answer_keeps {request : Packet} {metadata : Metadata} :
    Keeps stops quiet (answer request metadata) d fun _ => d.parcel :=
  fun _ orderly => .of_eq rfl (steady_get orderly (Nat.le_refl _))

theorem issue_keeps {command : Command} {m : Outbound} : Keeps stops quiet (issue command m) d fun _ => d.parcel :=
  fun s orderly => .of_eq (t := { s with issuer := { s.issuer.get.2 with drawn := s.issuer.drawn + 1 } }) rfl
    (steady_get orderly (Nat.le_succ _))

theorem steady_put (orderly : s.Orderly quiet) (p : Parcel) :
    Steady quiet s d.parcel { s with issuer := s.issuer.put p } d where
  calls := rfl
  waits := List.prefix_rfl
  load := rfl
  contexts := rfl
  packets _ := by
    unfold afield
    dsimp only
    rw [Issuer.gets_put, Issuer.puts_put]
    change _ + (d.packets + 1) = _
    omega
  orderly := orderly.congr rfl (Nat.le_refl _)

theorem putParcel_keeps (p : Parcel) : Keeps stops quiet (putParcel p) d.parcel fun _ => d :=
  fun _ orderly => .of_eq rfl (steady_put orderly p)

theorem takeContext_keeps : Keeps stops quiet takeContext d fun _ => d.context :=
  fun s orderly => .of_eq (t := { s with contexts := s.contexts.get.2 }) rfl
    { calls := rfl
      waits := List.prefix_rfl
      load := rfl
      contexts := by
        rw [ContextPool.gets_get, ContextPool.puts_get]
        change _ = _ + (d.contexts + 1)
        omega
      packets := fun _ => rfl
      orderly := orderly.congr rfl (Nat.le_refl _) }

theorem putContext_keeps (c : Context) : Keeps stops quiet (putContext c) d.context fun _ => d :=
  fun s orderly => .of_eq (t := { s with contexts := s.contexts.put c }) rfl
    { calls := rfl
      waits := List.prefix_rfl
      load := rfl
      contexts := by
        rw [ContextPool.gets_put, ContextPool.puts_put]
        change _ + (d.contexts + 1) = _ + d.contexts
        omega
      packets := fun _ => rfl
      orderly := orderly.congr rfl (Nat.le_refl _) }

/-- The packet of a context is given back once, and then no longer counts towards the load. -/
theorem release_ends (orderly : s.Orderly quiet) (c : Context) :
    Ends stops (release c) s fun c' t => c'.released = true ∧ Steady quiet s (d.holding c) t d := by
  unfold release
  split
  · rename_i released
    rw [Due.holding_of_released released]
    exact .of_eq rfl ⟨released, .refl orderly d⟩
  · rename_i held
    have put := steady_put (d := d) orderly c.parcel
    -- What is due with the context is its packet, and a place in the load if it was counted.
    have held : d.holding c = { d.parcel with load := d.load + if c.counted then 1 else 0 } := if_neg held
    rw [held]
    refine .of_eq (a := c.release) (t := { s with
      issuer := s.issuer.put c.parcel, load := if c.counted then s.load - 1 else s.load
      journal := .released c.parcel.toPacket :: s.journal }) rfl ⟨rfl,
      { calls := rfl
        waits := List.prefix_rfl
        load := ?_
        contexts := rfl
        packets := put.packets
        orderly := orderly.congr rfl (Nat.le_refl _) }⟩
    cases c.counted
    · change s.load + (d.load + 0) = s.load + d.load
      omega
    · change s.load - 1 + (d.load + 1) = s.load + d.load
      omega

theorem release_keeps (c : Context) : Keeps stops quiet (release c) (d.holding c) fun _ => d :=
  fun _ orderly => (release_ends orderly c).mono fun _ _ => And.right

theorem release_keeps_holding (c : Context) : Keeps stops quiet (release c) (d.holding c) fun c' => d.holding c' :=
  fun _ orderly => (release_ends (d := d) orderly c).mono fun c' _ ⟨released, steady⟩ => by
    change Steady _ _ _ _ (d.holding c')
    rwa [Due.holding_of_released released]

end

end Engine
end Switchboard
