import Switchboard.Proofs.Correlation
import Switchboard.Proofs.Engine.Underway

/-! The way of a frame that arrives. What stops it, or which chain it meets, is settled by its octets before any
    handler runs (`Setup.course`); what is done then is settled by that alone (`Course.follow`). Whatever its way,
    what was taken for it is given back. -/

namespace Switchboard

/-- How the way of a frame ends. -/
inductive Course where
  /-- A data filter stops it. -/
  | withheld
  | barred (fault : Fault)
  /-- The frame or its packet cannot be decoded. -/
  | illegible (p : Parcel) (fault : Fault)
  /-- It is a response, and calls are looked through for it. -/
  | reply (p : Parcel)
  /-- Another interceptor keeps it. -/
  | kept (p : Parcel)
  /-- A packet filter stops it. -/
  | stopped (p : Parcel)
  | refused (p : Parcel) (fault : Fault)
  | unrouted (p : Parcel) (fault : Fault)
  /-- The connection is overloaded. -/
  | dropped (p : Parcel)
  /-- It meets a chain of handlers, and may count towards the load. -/
  | handled (p : Parcel) (chain : List Program) (counted : Bool)

/-- What comes back to whoever handed in a frame. -/
def Course.result : Course → Except Fault Unit
  | .barred fault | .illegible _ fault | .refused _ fault | .unrouted _ fault => .error fault
  | .withheld | .reply _ | .kept _ | .stopped _ | .dropped _ | .handled _ _ _ => .ok ()

/-! ### Where a frame goes -/

/-- Reports as the journal keeps them, latest first. -/
def reports (events : List Event) : List Entry := (events.map Entry.event).reverse

/-- What data filters report, and what they make of octets. -/
def siftData : List (Bytes → Filtered Bytes) → Bytes → List Entry × Except Fault (Option Bytes)
  | [], data => ([], .ok (some data))
  | filter :: rest, data =>
    let result := filter data
    match result.verdict with
    | .error fault => (reports result.events, .error fault)
    | .ok .stop => (reports result.events, .ok none)
    | .ok .pass => ((siftData rest result.value).1 ++ reports result.events, (siftData rest result.value).2)

/-- What packet filters report, and what they make of a packet. -/
def siftPacket : List (Packet → Filtered Packet) → Parcel → List Entry × Parcel × Except Fault Verdict
  | [], p => ([], p, .ok .pass)
  | filter :: rest, p =>
    let result := filter p.toPacket
    let q := p.edit fun _ => result.value
    match result.verdict with
    | .ok .pass => ((siftPacket rest q).1 ++ reports result.events, (siftPacket rest q).2)
    | verdict => (reports result.events, q, verdict)

namespace Setup

variable (setup : Setup) (load : Int)

/-- The way of a packet that has passed the filters. -/
def direct (p : Parcel) : List Entry × Course :=
  match setup.router.resolve p.toPacket with
  | .error fault => ([], .unrouted p fault)
  | .ok chain =>
    match setup.overloaded with
    | none => ([.routed p.toPacket], .handled p chain false)
    | some overloaded =>
      if overloaded (load + 1) then ([.weighed (load + 1) true], .dropped p)
      else ([.routed p.toPacket, .weighed (load + 1) false], .handled p chain true)

/-- The way of a packet that was not intercepted. -/
def screen (p : Parcel) : List Entry × Course :=
  match siftPacket setup.packetFilters p with
  | (told, q, .ok .pass) => ((setup.direct load q).1 ++ (told ++ [.screened p.toPacket]), (setup.direct load q).2)
  | (told, q, .ok .stop) => (told ++ [.screened p.toPacket], .stopped q)
  | (told, q, .error fault) => (told ++ [.screened p.toPacket], .refused q fault)

/-- The way of a decoded packet. -/
def inspect (p : Parcel) : List Entry × Course :=
  match setup.hook with
  | .none => setup.screen load p
  | .replies => if p.command = .response then ([], .reply p) else setup.screen load p
  | .custom look =>
    match (look p.toPacket).packet with
    | none => (reports (look p.toPacket).events, .kept p)
    | some q =>
      ((setup.screen load (p.edit fun _ => q)).1 ++ reports (look p.toPacket).events,
        (setup.screen load (p.edit fun _ => q)).2)

/-- What is told of a frame on its way, latest first, and how its way ends. -/
def course (s : Engine) (data : Bytes) : List Entry × Course :=
  match siftData setup.dataFilters data with
  | (told, .error fault) => (told, .barred fault)
  | (told, .ok none) => (told, .withheld)
  | (told, .ok (some data)) =>
    match s.issuer.get.1.unframe setup.framing data with
    | (p, .error fault) => (told, .illegible p fault)
    | (p, .ok ()) => ((setup.inspect s.load p).1 ++ told, (setup.inspect s.load p).2)

end Setup

/-- What is done with a frame at the end of its way, in the state `s` that it met. A frame that the data filters let
    through has taken a packet out of the pool. -/
def Course.follow (setup : Setup) (inner : Inner) (s : Engine) : Course → Except Halt (Except Fault Unit × Engine)
  | .withheld => .ok (.ok (), s)
  | .barred fault => .ok (.error fault, s)
  | .illegible p fault | .refused p fault | .unrouted p fault =>
    .ok (.error fault, { s with issuer := s.issuer.get.2.put p })
  | .kept p | .stopped p | .dropped p => .ok (.ok (), { s with issuer := s.issuer.get.2.put p })
  | .reply p => (Engine.acceptReply setup inner p >>= fun _ => pure (.ok ())) { s with issuer := s.issuer.get.2 }
  | .handled p chain counted =>
    (Engine.drive (Engine.next setup inner chain) ((s.contexts.get.1.bind p counted).setPeer setup.peer) >>=
      fun _ => pure (.ok ()))
      { s with
        issuer := s.issuer.get.2, contexts := s.contexts.get.2
        load := if counted then s.load + 1 else s.load }

namespace Engine

variable {setup : Setup} {shared : Bool} {inner : Inner} {s t : Engine} {H : Hands}

theorem reportAll_eq (events : List Event) :
    reportAll events s = .ok ((), { s with journal := reports events ++ s.journal }) := by
  induction events generalizing s with
  | nil => rfl
  | cons e rest ih =>
    unfold reportAll
    rw [bind_of_ok ((record_eq_ok (x := ())).mpr rfl), ih]
    simp [reports, note]

theorem filterData_eq (filters : List (Bytes → Filtered Bytes)) (data : Bytes) : filterData filters data s =
    .ok ((siftData filters data).2, { s with journal := (siftData filters data).1 ++ s.journal }) := by
  induction filters generalizing data s with
  | nil => rfl
  | cons filter rest ih =>
    unfold filterData siftData
    dsimp only
    rw [bind_of_ok (reportAll_eq _)]
    rcases (filter data).verdict with fault | verdict
    · rfl
    · cases verdict with
      | pass =>
        rw [List.append_assoc]
        exact ih _
      | stop => rfl

theorem filterPacket_eq (filters : List (Packet → Filtered Packet)) (p : Parcel) : filterPacket filters p s =
    .ok ((siftPacket filters p).2, { s with journal := (siftPacket filters p).1 ++ s.journal }) := by
  induction filters generalizing p s with
  | nil => rfl
  | cons filter rest ih =>
    unfold filterPacket siftPacket
    dsimp only
    rw [bind_of_ok (reportAll_eq _)]
    rcases (filter p.toPacket).verdict with fault | verdict
    · rfl
    · cases verdict with
      | pass =>
        rw [List.append_assoc]
        exact ih _
      | stop => rfl

theorem dispatch_eq (p : Parcel) : dispatch setup inner p { s with issuer := s.issuer.get.2 } =
    (setup.direct s.load p).2.follow setup inner { s with journal := (setup.direct s.load p).1 ++ s.journal } := by
  unfold dispatch Setup.direct
  rcases setup.router.resolve p.toPacket with fault | chain
  · rfl
  dsimp only
  cases limit : setup.overloaded with
  | none =>
    rw [bind_of_ok (weigh_of_none limit)]
    rfl
  | some overloaded =>
    rw [bind_of_ok (weigh_of_some limit)]
    cases heavy : overloaded (s.load + 1) <;> simp only [heavy] <;> rfl

theorem screen_eq (p : Parcel) :
    (do
      record (.screened p.toPacket)
      match ← filterPacket setup.packetFilters p with
      | (p, .ok .pass) => dispatch setup inner p
      | (p, .ok .stop) =>
        putParcel p
        pure (.ok ())
      | (p, .error fault) =>
        putParcel p
        pure (.error fault)) { s with issuer := s.issuer.get.2 } =
    (setup.screen s.load p).2.follow setup inner { s with journal := (setup.screen s.load p).1 ++ s.journal } := by
  rw [bind_of_ok ((record_eq_ok (x := ())).mpr rfl), bind_of_ok (filterPacket_eq _ _)]
  unfold Setup.screen
  rcases siftPacket setup.packetFilters p with ⟨told, q, fault | verdict⟩
  · rw [List.append_assoc]
    rfl
  · cases verdict with
    | pass =>
      -- What the router tells comes on top of what the filters and the screening told.
      rw [List.append_assoc, List.append_assoc]
      exact dispatch_eq (s := { s with journal := told ++ .screened p.toPacket :: s.journal }) q
    | stop =>
      rw [List.append_assoc]
      rfl

theorem welcome_eq (p : Parcel) : welcome setup inner p { s with issuer := s.issuer.get.2 } =
    (setup.inspect s.load p).2.follow setup inner { s with journal := (setup.inspect s.load p).1 ++ s.journal } := by
  unfold welcome intercept Setup.inspect
  cases hook : setup.hook with
  | none => exact screen_eq p
  | replies =>
    dsimp only
    by_cases response : p.command = .response
    · simp only [response, if_true, bind_assoc, pure_bind]
      rfl
    · simp only [response, if_false, pure_bind]
      exact screen_eq p
  | custom look =>
    simp only [bind_assoc]
    rw [bind_of_ok (reportAll_eq _)]
    rcases (look p.toPacket).packet with _ | q
    · rfl
    · rw [pure_bind, List.append_assoc]
      exact screen_eq (s := { s with journal := reports (look p.toPacket).events ++ s.journal }) (p.edit fun _ => q)

/-- What is done with a frame is settled by its course. -/
theorem receiveWith_eq (inner : Inner) (data : Bytes) : receiveWith setup inner data s =
    (setup.course s data).2.follow setup inner { s with journal := (setup.course s data).1 ++ s.journal } := by
  unfold receiveWith Setup.course
  rw [bind_of_ok (filterData_eq _ _)]
  rcases siftData setup.dataFilters data with ⟨told, fault | _ | octets⟩
  · rfl
  · rfl
  dsimp only
  rw [bind_of_ok (takeParcel_eq_ok.mpr ⟨rfl, rfl⟩)]
  dsimp only
  rcases s.issuer.get.1.unframe setup.framing octets with ⟨p, fault | _⟩
  · rfl
  · rw [List.append_assoc]
    exact welcome_eq (s := { s with journal := told ++ s.journal }) p

theorem follow_result {c : Course} {r : Except Fault Unit} (h : c.follow setup inner s = .ok (r, t)) : r = c.result := by
  cases c with
  | withheld | barred _ | illegible _ _ | kept _ | stopped _ | refused _ _ | unrouted _ _ | dropped _ =>
    cases h
    rfl
  | reply p | handled p chain counted =>
    obtain ⟨_, u, -, h⟩ := bind_eq_ok.mp h
    exact (pure_eq_ok.mp h).1.symm

/-! ### What was taken is given back -/

/-- From one state to another as much was given back as was taken: of the load, of contexts, and, where nobody makes
    asynchronous calls, of packets. -/
structure Returned (quiet : Prop) (s t : Engine) : Prop where
  load : t.load = s.load
  contexts : (t.contexts.gets - t.contexts.puts : Int) = s.contexts.gets - s.contexts.puts
  packets : quiet → t.afield = s.afield

theorem Steady.returned {quiet : Prop} {d : Due} (steady : Steady quiet s d t d) : Returned quiet s t where
  load := by
    have := steady.load
    omega
  contexts := by
    have := steady.contexts
    omega
  packets hushed := by
    have := steady.packets hushed
    omega

/-- No handler or callback that a frame can set going makes asynchronous calls. -/
def Calm (setup : Setup) (s : Engine) : Prop := setup.Quiet ∧ ∀ pending ∈ pledges s.table.entries, pending.Quiet

theorem Underway.orderly_calm (run : Underway setup shared s H) (few : s.issuer.drawn ≤ numbers) :
    s.Orderly (Calm setup s) where
  keyed := (run.orderly few).keyed
  drawn := (run.orderly few).drawn
  calm := And.right

theorem receiveWith_ends {stops : Halt → Prop} {quiet : Prop} (steady : inner.Steady stops quiet setup)
    (orderly : s.Orderly quiet) (data : Bytes) : Ends stops (receiveWith setup inner data) s fun r t =>
      r = (setup.course s data).2.result ∧ Returned quiet s t where
  of_ok done := by
    -- The course says what comes back, and keeping what is due says what was given back.
    have kept := (receiveWith_keeps (d := {}) steady data s orderly).of_ok done
    exact ⟨follow_result ((receiveWith_eq inner data).symm.trans done), kept.returned⟩
  of_error := (receiveWith_keeps (d := {}) steady data s orderly).of_error

/-- Every frame has one course, and what is done with it is what belongs to that course and nothing else. What comes
    back is the course's result. As long as what handlers set going within gives back what it takes, so does this;
    and handlers that come back to the connection as deep as they may do so. -/
theorem every_frame_has_one_course (run : Underway setup shared s H) (few : s.issuer.drawn ≤ numbers) (data : Bytes) :
    (∀ inner, receiveWith setup inner data s =
      (setup.course s data).2.follow setup inner { s with journal := (setup.course s data).1 ++ s.journal }) ∧
    (∀ {stops quiet inner}, inner.Steady stops quiet setup → s.Orderly quiet →
      Ends stops (receiveWith setup inner data) s fun r t =>
        r = (setup.course s data).2.result ∧ Returned quiet s t) ∧
    ∀ depth, Ends (fun halt => halt = .tooDeep ∨ ¬Calm setup s ∧ Forced halt)
      (receiveWith setup (nested setup depth) data) s fun r t =>
        r = (setup.course s data).2.result ∧ Returned (Calm setup s) s t := by
  refine ⟨fun inner => receiveWith_eq inner data, fun steady orderly => receiveWith_ends steady orderly data, ?_⟩
  intro depth
  refine receiveWith_ends (nested_steady And.left (.inl rfl) ?_ depth) (run.orderly_calm few) data
  exact fun loud n drawn used => .inr ⟨loud, used⟩

/-! ### A frame whose handlers take in another -/

/-- One handler lets the other run and responds; the other takes in another frame. -/
def gated : Setup where
  framing := { layout := .id }
  overloaded := some fun load => 2 < load
  router := { ids := [(7,
    [.next (.respond (.ok (.value [9])) .empty fun _ => .done), .receive (shortReply 1 11 11) fun _ => .done])] }

theorem gated_quiet : gated.Quiet where
  router := by
    intro p chain resolved
    have mem := Router.mem_chains_of_resolve resolved
    obtain rfl := List.mem_singleton.mp mem
    intro handler there
    rcases List.mem_cons.mp there with rfl | there
    · exact fun _ => trivial
    · rw [List.mem_singleton.mp there]
      exact fun _ => trivial
  filter _ := trivial

/-- A request of two octets under a small number. -/
def shortRequest (session first second : UInt8) : Bytes :=
  [0, 0, 0, 26, 1, 0, 0, 0, 0, 0, 0, 0, 0, 0, 0, session, 0, 0, 0, 2, 0, 0, 0, 7, first, second]

theorem gated_frame_has_one_course : ∃ r t,
    receiveWith gated (nested gated 1) (shortRequest 5 1 2) {} = .ok (r, t) ∧
      (t.issuer.pool.gets = 3 ∧ t.contexts.gets = 1 ∧ t.writes = 1) ∧
      r = .ok () ∧ t.load = 0 ∧ t.afield = 0 := by
  have start : Reachable gated false {} := .start {} {} {} true fun _ => rfl
  obtain ⟨-, -, ends⟩ := every_frame_has_one_course (s := {}) start.underway (by decide +kernel) (shortRequest 5 1 2)
  have seen : (receiveWith gated (nested gated 1) (shortRequest 5 1 2) {}).toOption.any (fun x =>
      x.2.issuer.pool.gets = 3 ∧ x.2.contexts.gets = 1 ∧ x.2.writes = 1) = true := by decide +kernel
  have course : (gated.course {} (shortRequest 5 1 2)).2.result.toBool = true := by decide +kernel
  rcases result : receiveWith gated (nested gated 1) (shortRequest 5 1 2) {} with halt | ⟨r, t⟩
  · rw [result] at seen
    cases seen
  rw [result] at seen
  obtain ⟨answer, returned⟩ := (ends 1).of_ok result
  refine ⟨r, t, rfl, of_decide_eq_true seen, ?_, returned.load, returned.packets ⟨gated_quiet, ?_⟩⟩
  · rcases r with fault | _
    · rw [← answer] at course
      cases course
    · rfl
  · exact fun pending mem => absurd mem List.not_mem_nil

end Engine
end Switchboard
