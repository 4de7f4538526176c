import Switchboard.Proofs.Chains.Rounds
import Switchboard.Proofs.FrameCourse

/-! The load of a connection that has a limit. It is the number of inbound packets that have met a chain and were not
    given back, wherever a handler or a caller looks at it. For each packet that is routed the limit is asked once,
    about the load with that packet. So the load comes back to what it was with every frame, and a limit of so many
    packets is never exceeded. -/

namespace Switchboard

/-- What an entry tells of an answer of the limit: the load it was asked about, and whether it had a packet dropped. -/
def Entry.answer? : Entry → Option (Int × Bool)
  | .weighed load dropped => some (load, dropped)
  | _ => none

/-- What an entry tells of the load that a handler saw. -/
def Entry.sight? : Entry → Option Int
  | .looked load => some load
  | _ => none

/-- The limit let a packet in. -/
def Entry.admits : Entry → Bool
  | .weighed _ false => true
  | _ => false

def Entry.routes : Entry → Bool
  | .routed _ => true
  | _ => false

/-- What an entry says of the load is the number of packets whose chains are under way; the limit is asked about one
    more, and has just let in whatever packet is routed. -/
def Entry.Counts (overloaded : Int → Bool) (J : List Entry) : Entry → Prop
  | .looked load => load = inFlight J
  | .weighed load dropped => load = inFlight J + 1 ∧ dropped = overloaded load
  | .routed _ => ∃ earlier, J = .weighed (inFlight earlier + 1) false :: earlier
  | _ => True

/-- The limit was asked once about a packet that has a chain, and its answer was followed; about any other it was not
    asked at all. -/
def Course.Asked (setup : Setup) (overloaded : Int → Bool) (load : Int) (told : List Entry) : Course → Prop
  | .dropped p => (∃ chain, setup.router.resolve p.toPacket = .ok chain) ∧ overloaded (load + 1) = true ∧
    told.filterMap Entry.answer? = [(load + 1, true)]
  | .handled p chain counted => setup.router.resolve p.toPacket = .ok chain ∧ overloaded (load + 1) = false ∧
    told.filterMap Entry.answer? = [(load + 1, false)] ∧ counted = true
  | .unrouted p fault => setup.router.resolve p.toPacket = .error fault ∧ told.filterMap Entry.answer? = []
  | _ => told.filterMap Entry.answer? = []

/-! ### Asking the limit -/

section

variable {setup : Setup} {overloaded : Int → Bool} {load : Int} {told : List Entry}

theorem answers_reports (events : List Event) : (reports events).filterMap Entry.answer? = [] := by
  unfold reports
  rw [List.filterMap_eq_nil_iff]
  intro e mem
  obtain ⟨event, -, rfl⟩ := List.mem_map.mp (List.mem_reverse.mp mem)
  rfl

theorem answers_siftData (filters : List (Bytes → Filtered Bytes)) (data : Bytes) :
    (siftData filters data).1.filterMap Entry.answer? = [] := by
  induction filters generalizing data with
  | nil => rfl
  | cons filter rest ih =>
    unfold siftData
    dsimp only
    split
    · exact answers_reports _
    · exact answers_reports _
    · rw [List.filterMap_append, ih, answers_reports, List.append_nil]

theorem answers_siftPacket (filters : List (Packet → Filtered Packet)) (p : Parcel) :
    (siftPacket filters p).1.filterMap Entry.answer? = [] := by
  induction filters generalizing p with
  | nil => rfl
  | cons filter rest ih =>
    unfold siftPacket
    dsimp only
    split
    · rw [List.filterMap_append, ih, answers_reports, List.append_nil]
    · exact answers_reports _

/-- What was told before of other things changes nothing. -/
theorem Course.Asked.append {c : Course} (asked : c.Asked setup overloaded load told) {before : List Entry}
    (silent : before.filterMap Entry.answer? = []) : c.Asked setup overloaded load (told ++ before) := by
  have same : (told ++ before).filterMap Entry.answer? = told.filterMap Entry.answer? := by
    rw [List.filterMap_append, silent, List.append_nil]
  cases c <;> simpa only [Asked, same] using asked

variable (limit : setup.overloaded = some overloaded)
include limit

theorem Setup.direct_asked (p : Parcel) :
    (setup.direct load p).2.Asked setup overloaded load (setup.direct load p).1 := by
  unfold direct
  cases resolved : setup.router.resolve p.toPacket with
  | error fault => exact ⟨resolved, rfl⟩
  | ok chain =>
    simp only [limit]
    cases heavy : overloaded (load + 1) with
    | true => exact ⟨⟨chain, resolved⟩, heavy, rfl⟩
    | false => exact ⟨resolved, heavy, rfl, rfl⟩

theorem Setup.screen_asked (p : Parcel) :
    (setup.screen load p).2.Asked setup overloaded load (setup.screen load p).1 := by
  have silent := answers_siftPacket setup.packetFilters p
  unfold screen
  rcases sifted : siftPacket setup.packetFilters p with ⟨told, q, fault | verdict⟩ <;> rw [sifted] at silent
  · simpa [Course.Asked, Entry.answer?] using silent
  · cases verdict with
    | pass => exact (setup.direct_asked limit q).append (by simpa [Entry.answer?] using silent)
    | stop => simpa [Course.Asked, Entry.answer?] using silent

theorem Setup.inspect_asked (p : Parcel) :
    (setup.inspect load p).2.Asked setup overloaded load (setup.inspect load p).1 := by
  unfold inspect
  cases setup.hook with
  | none => exact setup.screen_asked limit p
  | replies =>
    dsimp only
    split
    · rfl
    · exact setup.screen_asked limit p
  | custom look =>
    dsimp only
    split
    · exact answers_reports _
    · exact (setup.screen_asked limit _).append (answers_reports _)

/-- The limit is asked once about a frame's packet if it has a chain, and otherwise never. -/
theorem Setup.course_asked (u : Engine) (data : Bytes) :
    (setup.course u data).2.Asked setup overloaded u.load (setup.course u data).1 := by
  have silent := answers_siftData setup.dataFilters data
  unfold course
  rcases sifted : siftData setup.dataFilters data with ⟨told, fault | _ | octets⟩ <;> rw [sifted] at silent
  · exact silent
  · exact silent
  dsimp only
  rcases u.issuer.get.1.unframe setup.framing octets with ⟨p, fault | _⟩
  · exact silent
  · exact (setup.inspect_asked limit p).append silent

end

/-! ### Counting chains -/

section

variable {setup : Setup} {overloaded : Int → Bool} {J : List Entry} {e : Entry}

theorem inFlight_cons_routed (p : Packet) : inFlight (.routed p :: J) = inFlight J + 1 := List.count_cons_self

/-- Nothing but the routing of a packet begins a chain of an inbound one. -/
theorem inFlight_cons_le (other : ∀ p, e ≠ .routed p) : inFlight (e :: J) ≤ inFlight J := by
  unfold inFlight
  rw [openChains]
  cases e with
  | routed p => exact absurd rfl (other p)
  | delivered pending p => exact (List.count_cons_of_ne (by decide)).le
  | released p => exact (List.tail_sublist _).count_le _
  | _ => exact Nat.le_refl _

theorem Entry.Bland.uncounted (bland : e.Bland) : e.routes = e.admits := by
  cases e <;> first | rfl | exact bland.elim

/-- Where there is a limit, an honest entry counts packets. -/
theorem Entry.Honest.counts (honest : ∀ later e earlier, J = later ++ e :: earlier → e.Honest setup 0 earlier)
    (limit : setup.overloaded = some overloaded) (later earlier : List Entry) (split : J = later ++ e :: earlier) :
    e.Counts overloaded earlier := by
  have limited : setup.overloaded.isSome := by rw [limit]; rfl
  have weight : ∀ J, setup.weight (openChains J) = inFlight J := fun J => Setup.weight_of_limited limited
  have own := honest later e earlier split
  cases e with
  | looked load => simpa [Honest, Counts, weight] using own
  | weighed load dropped =>
    obtain ⟨told, asked, hasked, answered⟩ := own
    obtain rfl := Option.some.inj (limit.symm.trans hasked)
    exact ⟨by simpa [weight] using told, answered⟩
  | routed p =>
    -- A packet is routed right after the limit let it in.
    obtain ⟨load, more, rfl⟩ := own limited
    obtain ⟨told, -⟩ := honest (later ++ [.routed p]) _ more (by simpa using split)
    refine ⟨more, ?_⟩
    rw [told, weight, Int.zero_add]
  | _ => trivial

/-- A limit of so many packets is kept. -/
theorem inFlight_le_of_counts {k : Int} (bound : ∀ n, overloaded n = decide (k < n))
    (counts : ∀ later e earlier, J = later ++ e :: earlier → e.Counts overloaded earlier) :
    (inFlight J : Int) ≤ max k 0 := by
  induction J with
  | nil => exact Int.le_max_right _ _
  | cons e J ih =>
    have before : (inFlight J : Int) ≤ max k 0 :=
      ih fun later e' earlier split => counts (e :: later) e' earlier (congrArg (e :: ·) split)
    -- Only routing a packet adds one, and the limit was asked about it just before.
    by_cases routed : ∃ p, e = .routed p
    · obtain ⟨p, rfl⟩ := routed
      obtain ⟨earlier, rfl⟩ := counts [] _ J rfl
      obtain ⟨-, light⟩ := counts [.routed p] _ earlier rfl
      rw [bound, eq_comm, decide_eq_false_iff_not] at light
      rw [inFlight_cons_routed]
      have same : inFlight (.weighed (inFlight earlier + 1) false :: earlier) = inFlight earlier := rfl
      rw [same]
      omega
    · have fewer : inFlight (e :: J) ≤ inFlight J := inFlight_cons_le fun p same => routed ⟨p, same⟩
      omega

end

namespace Engine

variable {setup : Setup} {overloaded : Int → Bool} {shared : Bool} {s t : Engine} {K K' : List Chain}
  {J : List Entry} {e : Entry}

/-- As many packets were routed as the limit has let in. -/
def Evened (J : List Entry) : Prop := J.countP Entry.routes = J.countP Entry.admits

theorem Evened.cons (evened : Evened J) (alike : e.routes = e.admits) : Evened (e :: J) := by
  unfold Evened at evened ⊢
  rw [List.countP_cons, List.countP_cons, evened, alike]

/-- A packet that is let in is routed. -/
theorem Evened.accept (evened : Evened J) (p : Packet) (load : Int) :
    Evened (.routed p :: .weighed load false :: J) := by
  unfold Evened at evened ⊢
  rw [List.countP_cons_of_pos rfl, List.countP_cons_of_neg Bool.false_ne_true,
    List.countP_cons_of_neg Bool.false_ne_true, List.countP_cons_of_pos rfl, evened]

theorem Beat.evened (beat : Beat setup s K t K') (limit : setup.overloaded = some overloaded)
    (evened : Evened s.journal) : Evened t.journal := by
  cases beat with
  | still journal _ => exact journal ▸ evened
  | note bland => exact evened.cons bland.uncounted
  | accept p _ _ => exact evened.accept p _
  | route p unlimited => exact absurd (limit.symm.trans unlimited) nofun
  | look | drop _ _ | release _ _ | enroll _ => exact evened.cons rfl

theorem Beats.evened (beats : Beats setup s K t K') (limit : setup.overloaded = some overloaded)
    (evened : Evened s.journal) : Evened t.journal := by
  induction beats with
  | refl => exact evened
  | tail _ last ih => exact last.evened limit (ih evened)
  | callbacks _ _ _ before inside => exact inside ((before evened).cons rfl)

theorem Reachable.evened (run : Reachable setup shared s) (limit : setup.overloaded = some overloaded) :
    Evened s.journal := by
  induction run with
  | start => rfl
  | act before depth a done ih => exact (act_beats (K := []) before.inv done).evened limit ih
  | around _ _ _ ih => exact ih
  | others _ _ _ _ _ ih => exact ih

/-- A frame leaves the load and the chains under way as it found them. -/
theorem receive_restores {depth : Nat} {data : Bytes} {r : Except Fault Unit}
    (done : receiveWith setup (nested setup depth) data s = .ok (r, t)) :
    t.load = s.load ∧ openChains t.journal = openChains s.journal := by
  have tally := (receiveWith_rounds (nested_round setup depth) data s r t done (openChains s.journal)).tally rfl
  refine ⟨?_, tally.chains⟩
  have := tally.load
  omega

/-- On a connection with a limit the load is the number of inbound packets that met a chain and were not given back:
    for a caller between two things done with the connection, when there are none; for every handler that looks at it;
    and, with one packet more, for the limit whenever it is asked. It is asked right before a packet is routed, and lets
    in as many as are routed. A limit of `k` packets is never exceeded. Of every frame that comes in, from outside or
    from within a handler however deep, the limit is asked once if the packet has a chain and never otherwise, and the
    load is the same afterwards. -/
theorem load_is_the_number_in_flight (limit : setup.overloaded = some overloaded) (run : Reachable setup shared s) :
    (s.load = inFlight s.journal ∧ s.load = 0) ∧
    (∀ later e earlier, s.journal = later ++ e :: earlier → e.Counts overloaded earlier) ∧
    s.journal.countP Entry.routes = s.journal.countP Entry.admits ∧
    (∀ k : Int, (∀ n, overloaded n = decide (k < n)) → ∀ earlier, earlier <:+ s.journal →
      (inFlight earlier : Int) ≤ max k 0) ∧
    ∀ (u : Engine) data,
      (setup.course u data).2.Asked setup overloaded u.load (setup.course u data).1 ∧
      (∀ inner, receiveWith setup inner data u =
        (setup.course u data).2.follow setup inner { u with journal := (setup.course u data).1 ++ u.journal }) ∧
      ∀ depth r t, receiveWith setup (nested setup depth) data u = .ok (r, t) →
        t.load = u.load ∧ inFlight t.journal = inFlight u.journal := by
  obtain ⟨idle, zero, honest⟩ := run.level
  have none : inFlight s.journal = 0 := by
    unfold inFlight
    rw [idle]
    rfl
  have counts : ∀ later e earlier, s.journal = later ++ e :: earlier → e.Counts overloaded earlier :=
    fun later e earlier => Entry.Honest.counts honest limit later earlier
  refine ⟨⟨by rw [zero, none]; rfl, zero⟩, counts, run.evened limit, ?_, fun u data => ⟨?_, ?_, ?_⟩⟩
  · rintro k bound earlier ⟨later, split⟩
    refine inFlight_le_of_counts bound fun between e before inside => ?_
    exact counts (later ++ between) e before (by rw [← split, inside, List.append_assoc])
  · exact setup.course_asked limit u data
  · exact fun inner => receiveWith_eq inner data
  · intro depth r t done
    obtain ⟨load, chains⟩ := receive_restores done
    exact ⟨load, congrArg (List.count Chain.inbound) chains⟩

/-! ### A handler that comes back with its own frame until it is dropped -/

/-- A handler looks at the load, comes back with the same frame, and looks again; two packets are let in. -/
def turnstile : Setup where
  framing := { layout := .id }
  overloaded := some fun load => 2 < load
  router := { ids := [(7, [.look fun _ => .receive (shortRequest 5 1 2) fun _ => .look fun _ => .done])] }

/-- The limit is asked three times and drops the last packet; two chains lie within one another. -/
theorem turnstile_counts_chains : ∃ s, Reachable turnstile false s ∧
    s.journal.filterMap Entry.answer? = [(3, true), (2, false), (1, false)] ∧
    s.journal.filterMap Entry.sight? = [1, 2, 2, 1] ∧
    (∀ later e earlier, s.journal = later ++ e :: earlier → e.Counts (fun load => 2 < load) earlier) ∧
    (∀ earlier, earlier <:+ s.journal → (inFlight earlier : Int) ≤ max 2 0) ∧ s.load = 0 := by
  have start : Reachable turnstile false {} := .start {} {} {} true fun _ => rfl
  have run : Reachable turnstile false (actAll turnstile 3 [.receive (shortRequest 5 1 2)] {}) := start.actAll 3 _
  obtain ⟨⟨-, zero⟩, counts, -, bounded, -⟩ := load_is_the_number_in_flight rfl run
  refine ⟨_, run, ?_, ?_, counts, bounded 2 fun _ => rfl, zero⟩ <;> decide +kernel

end Engine
end Switchboard
