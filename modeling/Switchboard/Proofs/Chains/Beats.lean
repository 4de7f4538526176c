import Switchboard.Proofs.Link.Speech

/-! The chains of handlers that are under way on a connection. One begins when a packet is routed or callbacks are run,
    and lasts until its packet is given back; what begins within it is over by then, so those under way lie within one
    another. The load is raised and lowered with them, and whatever the journal says of it is what they amount to. It
    says too that requests are registered for the calls that were made. All this is said of single beats of the work,
    and so holds of any number of them. -/

namespace Switchboard

/-- A chain of handlers, by what it is run for. -/
inductive Chain where
  /-- An inbound packet was routed to it. -/
  | inbound
  | callbacks
  deriving DecidableEq

/-- The chains under way once an entry was made, the latest begun first. -/
def Entry.chains (e : Entry) (K : List Chain) : List Chain :=
  match e with
  | .routed _ => .inbound :: K
  | .delivered _ _ => .callbacks :: K
  | .released _ => K.tail
  | _ => K

/-- The chains that have begun and whose packets were not given back, the latest begun first. -/
def openChains : List Entry → List Chain
  | [] => []
  | e :: J => e.chains (openChains J)

/-- How many inbound packets have met a chain and were not given back. -/
def inFlight (J : List Entry) : Nat := (openChains J).count .inbound

/-- A chain counts towards the load, as long as there is a limit. -/
def Setup.counts (setup : Setup) : Chain → Bool
  | .inbound => setup.overloaded.isSome
  | .callbacks => false

/-- What chains amount to. -/
def Setup.weight (setup : Setup) (K : List Chain) : Int := K.countP setup.counts

/-- A request is that of a call that was made and bears its message; the request of an asynchronous call fits into a
    frame. -/
def Requested (setup : Setup) (J : List Entry) (ticket : Nat) (request : Packet) : Prop :=
  ∃ made : Made, made.entry ticket ∈ J ∧ made.message.Drafts request ∧
    ∀ m callbacks, made = .async m callbacks → ∃ frame, setup.framing.encode request = .ok frame

/-- What an entry says of the load is true, which lies above what the chains under way amount to by so much; where there
    is a limit, a packet is routed right after it was found to be within it; and what is registered was requested. -/
def Entry.Honest (setup : Setup) (above : Int) (J : List Entry) : Entry → Prop
  | .looked load => load = above + setup.weight (openChains J)
  | .weighed load dropped => load = above + setup.weight (openChains J) + 1 ∧
    ∃ overloaded, setup.overloaded = some overloaded ∧ dropped = overloaded load
  | .routed _ => setup.overloaded.isSome → ∃ load earlier, J = .weighed load false :: earlier
  | .registered ticket request => Requested setup J ticket request
  | _ => True

/-- An entry is about neither the load nor chains nor requests. -/
def Entry.Bland : Entry → Prop
  | .routed _ | .delivered _ _ | .released _ | .looked _ | .weighed _ _ | .registered _ _ => False
  | _ => True

section

variable {setup : Setup} {J : List Entry} {e : Entry} {k : Chain} {K : List Chain}

theorem Entry.Bland.chains (bland : e.Bland) : e.chains K = K := by
  cases e <;> first | rfl | exact bland.elim

theorem Entry.Bland.honest (bland : e.Bland) {above : Int} : e.Honest setup above J := by
  cases e <;> trivial

@[simp]
theorem Setup.weight_nil : setup.weight [] = 0 := rfl

theorem Setup.weight_cons : setup.weight (k :: K) = setup.weight K + if setup.counts k then 1 else 0 := by
  unfold weight
  rw [List.countP_cons]
  split <;> simp

/-- Where there is a limit, chains amount to the number of those of inbound packets. -/
theorem Setup.weight_of_limited (limited : setup.overloaded.isSome) : setup.weight K = K.count .inbound := by
  unfold weight
  congr 1
  refine List.countP_congr fun k _ => ?_
  cases k with
  | inbound => simpa [counts] using limited
  | callbacks => simp [counts]

end

namespace Engine

/-- A connection that callbacks are about to be run on: the journal says so, and a context was taken for them. -/
def launch (s : Engine) (pending : Pending) (p : Packet) : Engine :=
  { s with contexts := s.contexts.get.2, journal := .delivered pending p :: s.journal }

end Engine

/-- Callbacks are run on a packet to their end: the response filter has their request, and takes a context with the
    packet along them. -/
def Pending.RunsOn (setup : Setup) (pending : Pending) (depth : Nat) (q : Parcel) (s t : Engine) : Prop :=
  Engine.drive
    (Engine.perform setup (Engine.nested setup depth) (Engine.next setup (Engine.nested setup depth) pending.callbacks)
      (setup.responseFilter pending.request.toPacket))
    (s.contexts.get.1.bind q false) (s.launch pending q.toPacket) = .ok ((), t)

namespace Engine

/-! ### Beats -/

/-- One thing that happens, by what it does to the load and to the chains under way. -/
inductive Beat (setup : Setup) (s : Engine) : List Chain → Engine → List Chain → Prop where
  | still {t K} (journal : t.journal = s.journal) (load : t.load = s.load) : Beat setup s K t K
  | note {e K} (bland : e.Bland) : Beat setup s K (s.note e) K
  | look {K} : Beat setup s K (s.note (.looked s.load)) K
  -- An inbound packet is dropped, or routed.
  | drop {overloaded K} (limit : setup.overloaded = some overloaded) (heavy : overloaded (s.load + 1) = true) :
    Beat setup s K (s.note (.weighed (s.load + 1) true)) K
  | accept {overloaded K} (p : Packet) (limit : setup.overloaded = some overloaded)
    (light : overloaded (s.load + 1) = false) :
    Beat setup s K { s with load := s.load + 1, journal := .routed p :: .weighed (s.load + 1) false :: s.journal }
      (.inbound :: K)
  | route {K} (p : Packet) (unlimited : setup.overloaded = none) : Beat setup s K (s.note (.routed p)) (.inbound :: K)
  | release {k K} (p : Packet) {counted : Bool} (own : counted = setup.counts k) :
    Beat setup s (k :: K)
      { s with load := if counted then s.load - 1 else s.load, journal := .released p :: s.journal } K
  | enroll {entry : Session} {request K} (requested : Requested setup s.journal entry.ticket request) :
    Beat setup s K (s.enroll entry request) K

/-- Any number of beats. Callbacks are one whole: they begin, beats happen while they run, and they come to their end. -/
inductive Beats (setup : Setup) : Engine → List Chain → Engine → List Chain → Prop where
  | refl {s K} : Beats setup s K s K
  | tail {s t u K K' K''} (before : Beats setup s K t K') (last : Beat setup t K' u K'') : Beats setup s K u K''
  | callbacks {s t u K K' pending depth q} (before : Beats setup s K t K')
    (inside : Beats setup (t.note (.delivered pending q.toPacket)) (.callbacks :: K') u K')
    (whole : pending.RunsOn setup depth q t u) : Beats setup s K u K'

variable {setup : Setup} {s t u : Engine} {e : Entry} {K K' K'' : List Chain}

theorem Beats.trans (first : Beats setup s K t K') (second : Beats setup t K' u K'') : Beats setup s K u K'' := by
  induction second with
  | refl => exact first
  | tail _ last ih => exact .tail (ih first) last
  | callbacks _ inside whole ih _ => exact .callbacks (ih first) inside whole

theorem Beats.single (beat : Beat setup s K t K') : Beats setup s K t K' := .tail .refl beat

/-! ### What beats tell -/

/-- From one state to another chains began and ended as the journal says, what they amount to is the difference of the
    load, and everything that was told meanwhile is true. -/
structure Tally (setup : Setup) (s : Engine) (K : List Chain) (t : Engine) (K' : List Chain) : Prop where
  chains : openChains t.journal = K'
  load : t.load - setup.weight K' = s.load - setup.weight K
  journal : ∃ es, t.journal = es ++ s.journal ∧ ∀ later e earlier, es = later ++ e :: earlier →
    e.Honest setup (s.load - setup.weight K) (earlier ++ s.journal)

namespace Tally

theorem refl (chains : openChains s.journal = K) : Tally setup s K s K where
  chains := chains
  load := rfl
  journal := ⟨[], rfl, fun later e earlier split => absurd split (by simp)⟩

theorem trans (first : Tally setup s K t K') (second : Tally setup t K' u K'') : Tally setup s K u K'' where
  chains := second.chains
  load := second.load.trans first.load
  journal := by
    obtain ⟨es, hes, honest⟩ := first.journal
    obtain ⟨es', hes', honest'⟩ := second.journal
    refine ⟨es' ++ es, by rw [hes', hes, List.append_assoc], fun later e earlier split => ?_⟩
    rw [first.load, hes] at honest'
    rcases List.append_eq_append_iff.mp split with ⟨more, rfl, rfl⟩ | ⟨more, hmore, tail⟩
    · exact honest more e earlier rfl
    · cases more with
      | nil =>
        rw [List.append_nil] at hmore
        exact honest [] e earlier tail.symm
      | cons e' more =>
        obtain ⟨rfl, rfl⟩ := List.cons.inj tail
        change e.Honest setup _ (more ++ es ++ s.journal)
        rw [List.append_assoc]
        exact honest' later e more hmore

/-- One entry more is honest, and the chains and the load go with it. -/
theorem single (chains : openChains s.journal = K) (journal : t.journal = e :: s.journal) (own : e.chains K = K')
    (load : t.load - setup.weight K' = s.load - setup.weight K)
    (honest : e.Honest setup (s.load - setup.weight K) s.journal) : Tally setup s K t K' where
  chains := by
    rw [journal, openChains, chains, own]
  load := load
  journal := by
    refine ⟨[e], journal, fun later e' earlier split => ?_⟩
    obtain ⟨rfl, rfl, rfl⟩ : later = [] ∧ e' = e ∧ earlier = [] := by
      cases later with
      | nil => simpa [eq_comm] using split
      | cons _ later => simp at split
    exact honest

end Tally

theorem Beat.tally (beat : Beat setup s K t K') (chains : openChains s.journal = K) : Tally setup s K t K' := by
  cases beat with
  | still journal load =>
    refine ⟨by rw [journal, chains], by rw [load], [], journal, fun later e earlier split => absurd split (by simp)⟩
  | note bland => exact .single chains rfl bland.chains rfl bland.honest
  | look =>
    refine .single chains rfl rfl rfl ?_
    simp only [Entry.Honest, chains]
    omega
  | drop limit heavy =>
    refine .single chains rfl rfl rfl ⟨?_, _, limit, heavy.symm⟩
    rw [chains]
    omega
  | accept p limit light =>
    have counted : setup.counts .inbound = true := by simp [Setup.counts, limit]
    have weighed : Tally setup s K (s.note (.weighed (s.load + 1) false)) K := by
      refine .single chains rfl rfl rfl ⟨?_, _, limit, light.symm⟩
      rw [chains]
      omega
    refine weighed.trans (.single weighed.chains rfl rfl ?_ fun _ => ⟨_, _, rfl⟩)
    rw [Setup.weight_cons, if_pos counted]
    change s.load + 1 - (setup.weight K + 1) = s.load - setup.weight K
    omega
  | route p unlimited =>
    have free : setup.counts .inbound = false := by simp [Setup.counts, unlimited]
    refine .single chains rfl rfl ?_ fun limited => absurd limited (by simp [unlimited])
    rw [Setup.weight_cons, free]
    simp [Engine.note]
  | @release k K p counted own =>
    refine .single chains rfl rfl ?_ trivial
    rw [Setup.weight_cons, ← own]
    cases counted with
    | true =>
      change s.load - 1 - setup.weight K' = s.load - (setup.weight K' + 1)
      omega
    | false =>
      change s.load - setup.weight K' = s.load - (setup.weight K' + 0)
      omega
  | @enroll entry request _ requested =>
    exact .single (e := .registered entry.ticket request) chains rfl rfl rfl requested

/-- Callbacks that begin are on top of the chains under way, and do not count towards the load. -/
theorem Tally.deliver (chains : openChains s.journal = K) (pending : Pending) (p : Packet) :
    Tally setup s K (s.note (.delivered pending p)) (.callbacks :: K) := by
  refine .single chains rfl rfl ?_ trivial
  rw [Setup.weight_cons]
  simp [Setup.counts, Engine.note]

theorem Beats.tally (beats : Beats setup s K t K') (chains : openChains s.journal = K) : Tally setup s K t K' := by
  induction beats with
  | refl => exact .refl chains
  | tail _ last ih =>
    have before := ih chains
    exact before.trans (last.tally before.chains)
  | @callbacks _ _ _ _ _ pending _ q _ _ _ before inside =>
    have before := before chains
    have begun : Tally setup _ _ _ _ := Tally.deliver before.chains pending q.toPacket
    exact (before.trans begun).trans (inside begun.chains)

end Engine
end Switchboard
