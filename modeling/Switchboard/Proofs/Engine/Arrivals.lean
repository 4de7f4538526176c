import Switchboard.Proofs.Engine.Handlers

/-! Frames that arrive and the closing of a connection as moves, at every depth of work within work. -/

namespace Switchboard
namespace Engine

variable {setup : Setup} {inner : Inner} {s t : Engine}

/-! ### Filters -/

theorem filterData_moves {filters : List (Bytes → Filtered Bytes)} {data : Bytes}
    {r : Except Fault (Option Bytes)} (h : filterData filters data s = .ok (r, t)) (F : Hands) :
    Moves setup s F t F := by
  induction filters generalizing data s with
  | nil =>
    obtain ⟨-, rfl⟩ := pure_eq_ok.mp h
    exact .refl
  | cons filter rest ih =>
    unfold filterData at h
    obtain ⟨_, u, hreport, h⟩ := bind_eq_ok.mp h
    refine (reportAll_moves hreport F).trans ?_
    rcases hverdict : (filter data).verdict with fault | verdict
    · simp only [hverdict] at h
      obtain ⟨-, rfl⟩ := pure_eq_ok.mp h
      exact .refl
    · cases verdict with
      | pass =>
        simp only [hverdict] at h
        exact ih h
      | stop =>
        simp only [hverdict] at h
        obtain ⟨-, rfl⟩ := pure_eq_ok.mp h
        exact .refl

theorem filterPacket_moves {filters : List (Packet → Filtered Packet)} {p q : Parcel}
    {r : Except Fault Verdict} (h : filterPacket filters p s = .ok ((q, r), t)) (F : Hands) :
    Moves setup s F t F := by
  induction filters generalizing p s with
  | nil =>
    obtain ⟨-, rfl⟩ := pure_eq_ok.mp h
    exact .refl
  | cons filter rest ih =>
    unfold filterPacket at h
    obtain ⟨_, u, hreport, h⟩ := bind_eq_ok.mp h
    refine (reportAll_moves hreport F).trans ?_
    rcases hverdict : (filter p.toPacket).verdict with fault | verdict
    · simp only [hverdict] at h
      obtain ⟨-, rfl⟩ := pure_eq_ok.mp h
      exact .refl
    · cases verdict with
      | pass =>
        simp only [hverdict] at h
        exact ih h
      | stop =>
        simp only [hverdict] at h
        obtain ⟨-, rfl⟩ := pure_eq_ok.mp h
        exact .refl

/-! ### Replies -/

/-- A response ends the call that it answers; one that answers none goes back to the pool. -/
theorem acceptReply_moves (sound : inner.Sound setup) {p : Parcel} (response : p.command = .response) {x : Unit}
    (h : acceptReply setup inner p s = .ok (x, t)) (F : Hands) : Moves setup s (.parcel ::ₘ F) t F := by
  unfold acceptReply at h
  obtain ⟨found, u, htake, h⟩ := bind_eq_ok.mp h
  obtain ⟨hfound, rfl⟩ := takeSession_eq_ok.mp htake
  cases found with
  | none =>
    obtain ⟨_, v, hrec, h⟩ := bind_eq_ok.mp h
    obtain rfl := record_eq_ok.mp hrec
    obtain rfl := putParcel_eq_ok.mp h
    -- A number that is not in the table takes nothing out of it.
    rw [SessionTable.erase_of_find hfound]
    have passed := (Move.pass response hfound : Move setup s _ _ _).moves (.parcel ::ₘ F)
    simp only [Multiset.zero_add] at passed
    exact passed.trans (moves_put p F)
  | some entry =>
    obtain ⟨_, v, hrec, h⟩ := bind_eq_ok.mp h
    obtain rfl := record_eq_ok.mp hrec
    cases entry with
    | callback pending =>
      have matched := (Move.matchCallbacks response hfound : Move setup s _ _ _).moves F
      simp only [Multiset.insert_eq_cons, Multiset.cons_add, Multiset.singleton_add] at matched
      exact matched.trans (deliver_moves sound h F)
    | waiting ticket listening =>
      cases listening with
      | true =>
        obtain rfl := modify_eq_ok.mp h
        have matched := (Move.matchWaiting response hfound : Move setup s _ _ _).moves F
        rw [Multiset.zero_add, Multiset.singleton_add] at matched
        exact matched
      | false =>
        obtain rfl := putParcel_eq_ok.mp h
        have matched := (Move.matchNobody response hfound : Move setup s _ _ _).moves (.parcel ::ₘ F)
        simp only [Multiset.zero_add] at matched
        exact matched.trans (moves_put p F)

/-- What an interceptor lets go on is no response where responses are intercepted. -/
theorem intercept_moves (sound : inner.Sound setup) {p : Parcel} {r : Option Parcel}
    (h : intercept setup inner p s = .ok (r, t)) (F : Hands) :
    (r = none ∧ Moves setup s (.parcel ::ₘ F) t F) ∨
    ∃ q, r = some q ∧ Plain setup (.screened q.toPacket) ∧
      Moves setup s (.parcel ::ₘ F) t (.parcel ::ₘ F) := by
  unfold intercept at h
  cases hhook : setup.hook with
  | none =>
    rw [hhook] at h
    obtain ⟨rfl, rfl⟩ := pure_eq_ok.mp h
    refine .inr ⟨p, rfl, ?_, .refl⟩
    intro hreplies
    rw [hhook] at hreplies
    cases hreplies
  | replies =>
    rw [hhook] at h
    dsimp only at h
    split at h
    · rename_i response
      obtain ⟨_, u, haccept, h⟩ := bind_eq_ok.mp h
      obtain ⟨rfl, rfl⟩ := pure_eq_ok.mp h
      exact .inl ⟨rfl, acceptReply_moves sound response haccept F⟩
    · rename_i other
      obtain ⟨rfl, rfl⟩ := pure_eq_ok.mp h
      exact .inr ⟨p, rfl, fun _ => other, .refl⟩
  | custom look =>
    rw [hhook] at h
    obtain ⟨_, u, hreport, h⟩ := bind_eq_ok.mp h
    have reported : Moves setup s (.parcel ::ₘ F) u (.parcel ::ₘ F) := reportAll_moves hreport _
    rcases hpacket : (look p.toPacket).packet with _ | q
    · simp only [hpacket] at h
      obtain ⟨_, v, hput, h⟩ := bind_eq_ok.mp h
      obtain rfl := putParcel_eq_ok.mp hput
      obtain ⟨rfl, rfl⟩ := pure_eq_ok.mp h
      exact .inl ⟨rfl, reported.trans (moves_put p F)⟩
    · simp only [hpacket] at h
      obtain ⟨rfl, rfl⟩ := pure_eq_ok.mp h
      refine .inr ⟨_, rfl, ?_, reported⟩
      intro hreplies
      rw [hhook] at hreplies
      cases hreplies

/-! ### Dispatch -/

theorem weigh_moves {r : Option Bool} (h : weigh setup s = .ok (r, t)) (F : Hands) : Moves setup s F t F := by
  unfold weigh at h
  cases hoverloaded : setup.overloaded with
  | none =>
    rw [hoverloaded] at h
    obtain ⟨-, rfl⟩ := pure_eq_ok.mp h
    exact .refl
  | some overloaded =>
    rw [hoverloaded] at h
    obtain ⟨_, _, hget, h⟩ := bind_eq_ok.mp h
    obtain ⟨rfl, rfl⟩ := get_eq_ok.mp hget
    obtain ⟨_, u, hrec, h⟩ := bind_eq_ok.mp h
    obtain rfl := record_eq_ok.mp hrec
    have weighed := moves_note (s := s) (e := .weighed (s.load + 1) (overloaded (s.load + 1)))
      (show Plain setup _ from trivial) F
    refine weighed.trans ?_
    split at h
    · obtain ⟨-, rfl⟩ := pure_eq_ok.mp h
      exact .refl
    · obtain ⟨_, v, hload, h⟩ := bind_eq_ok.mp h
      obtain rfl := modify_eq_ok.mp hload
      obtain ⟨-, rfl⟩ := pure_eq_ok.mp h
      exact moves_load _ F

theorem dispatch_moves (sound : inner.Sound setup) {p : Parcel} {r : Except Fault Unit}
    (h : dispatch setup inner p s = .ok (r, t)) (F : Hands) : Moves setup s (.parcel ::ₘ F) t F := by
  unfold dispatch at h
  rcases hresolve : setup.router.resolve p.toPacket with fault | chain
  · rw [hresolve] at h
    obtain ⟨_, u, hput, h⟩ := bind_eq_ok.mp h
    obtain rfl := putParcel_eq_ok.mp hput
    obtain ⟨-, rfl⟩ := pure_eq_ok.mp h
    exact moves_put p F
  · rw [hresolve] at h
    obtain ⟨weight, u, hweigh, h⟩ := bind_eq_ok.mp h
    refine (weigh_moves hweigh _).trans ?_
    cases weight with
    | none =>
      obtain ⟨_, v, hput, h⟩ := bind_eq_ok.mp h
      obtain rfl := putParcel_eq_ok.mp hput
      obtain ⟨-, rfl⟩ := pure_eq_ok.mp h
      exact moves_put p F
    | some counted =>
      obtain ⟨_, v, hrec, h⟩ := bind_eq_ok.mp h
      obtain rfl := record_eq_ok.mp hrec
      obtain ⟨c, w, hcontext, h⟩ := bind_eq_ok.mp h
      obtain ⟨-, rfl⟩ := takeContext_eq_ok.mp hcontext
      obtain ⟨_, x, hdrive, h⟩ := bind_eq_ok.mp h
      obtain ⟨-, rfl⟩ := pure_eq_ok.mp h
      have driven := drive_moves (next_runs sound chain) hdrive F
      -- A context starts out with its packet, and whatever its chain does the packet is back at the end.
      rw [held_of_not_released rfl, Multiset.singleton_add] at driven
      exact ((moves_note (e := .routed p.toPacket) trivial _).trans (moves_contexts _ _)).trans driven

theorem welcome_moves (sound : inner.Sound setup) {p : Parcel} {r : Except Fault Unit}
    (h : welcome setup inner p s = .ok (r, t)) (F : Hands) : Moves setup s (.parcel ::ₘ F) t F := by
  unfold welcome at h
  obtain ⟨kept, u, hintercept, h⟩ := bind_eq_ok.mp h
  rcases intercept_moves sound hintercept F with ⟨rfl, taken⟩ | ⟨q, rfl, plain, shown⟩
  · obtain ⟨-, rfl⟩ := pure_eq_ok.mp h
    exact taken
  · obtain ⟨_, v, hrec, h⟩ := bind_eq_ok.mp h
    obtain rfl := record_eq_ok.mp hrec
    obtain ⟨⟨q', verdict⟩, w, hfilter, h⟩ := bind_eq_ok.mp h
    refine ((shown.trans (moves_note plain _)).trans (filterPacket_moves hfilter _)).trans ?_
    rcases verdict with fault | verdict
    · obtain ⟨_, x, hput, h⟩ := bind_eq_ok.mp h
      obtain rfl := putParcel_eq_ok.mp hput
      obtain ⟨-, rfl⟩ := pure_eq_ok.mp h
      exact moves_put q' F
    · cases verdict with
      | pass => exact dispatch_moves sound h F
      | stop =>
        obtain ⟨_, x, hput, h⟩ := bind_eq_ok.mp h
        obtain rfl := putParcel_eq_ok.mp hput
        obtain ⟨-, rfl⟩ := pure_eq_ok.mp h
        exact moves_put q' F

theorem receiveWith_moves (sound : inner.Sound setup) {data : Bytes} {r : Except Fault Unit}
    (h : receiveWith setup inner data s = .ok (r, t)) (F : Hands) : Moves setup s F t F := by
  unfold receiveWith at h
  obtain ⟨filtered, u, hfilter, h⟩ := bind_eq_ok.mp h
  refine (filterData_moves hfilter F).trans ?_
  rcases filtered with fault | _ | data'
  · obtain ⟨-, rfl⟩ := pure_eq_ok.mp h
    exact .refl
  · obtain ⟨-, rfl⟩ := pure_eq_ok.mp h
    exact .refl
  · obtain ⟨p, v, htake, h⟩ := bind_eq_ok.mp h
    obtain ⟨-, rfl⟩ := takeParcel_eq_ok.mp htake
    refine (moves_take F).trans ?_
    rcases hunframe : p.unframe setup.framing data' with ⟨q, fault | _⟩
    · simp only [hunframe] at h
      obtain ⟨_, w, hput, h⟩ := bind_eq_ok.mp h
      obtain rfl := putParcel_eq_ok.mp hput
      obtain ⟨-, rfl⟩ := pure_eq_ok.mp h
      exact moves_put q F
    · simp only [hunframe] at h
      exact welcome_moves sound h F

/-! ### Closing -/

theorem endAll_moves (sound : inner.Sound setup) {sessions : List (UInt64 × Session)} {x : Unit}
    (h : endAll setup inner sessions s = .ok (x, t)) (F : Hands) :
    Moves setup s (owing sessions + F) t F := by
  induction sessions generalizing s with
  | nil =>
    obtain ⟨-, rfl⟩ := pure_eq_ok.mp h
    exact (Multiset.zero_add F).symm ▸ .refl
  | cons e rest ih =>
    obtain ⟨n, entry⟩ := e
    cases entry with
    | waiting ticket listening =>
      rw [owing_cons_waiting]
      exact ih h
    | callback pending =>
      obtain ⟨p, u, hsynth, h⟩ := bind_eq_ok.mp h
      obtain ⟨hpacket, rfl⟩ := synthesize_eq_ok hsynth
      obtain ⟨_, v, hdeliver, h⟩ := bind_eq_ok.mp h
      have delivered := deliver_moves sound hdeliver (owing rest + F)
      rw [hpacket] at delivered
      have settled := (Move.settle pending : Move setup { s with issuer := s.issuer.get.2 } _ _ _).moves
        (owing rest + F)
      simp only [Multiset.insert_eq_cons, Multiset.cons_add, Multiset.singleton_add] at settled
      rw [owing_cons_callback, Multiset.cons_add]
      exact (((moves_take _).trans settled).trans delivered).trans (ih h)

theorem closeWith_moves (sound : inner.Sound setup) {x : Unit}
    (h : closeWith setup inner s = .ok (x, t)) (F : Hands) : Moves setup s F t F := by
  unfold closeWith at h
  obtain ⟨_, u, hrec, h⟩ := bind_eq_ok.mp h
  obtain rfl := record_eq_ok.mp hrec
  obtain ⟨sessions, v, hdrain, h⟩ := bind_eq_ok.mp h
  obtain ⟨rfl, rfl⟩ := Prod.mk.injEq .. ▸ modifyGet_eq_ok.mp hdrain
  have closed := (Move.close : Move setup s _ _ _).moves F
  -- Callbacks may be run in any order, and what is owed does not depend on it.
  have swept : owing (setup.sweep s.table.entries) = owing s.table.entries :=
    Multiset.coe_eq_coe.mpr (((setup.sweep_perm s.table.entries).filterMap _).map _)
  rw [← swept, Multiset.zero_add] at closed
  exact closed.trans (endAll_moves sound h F)

/-! ### Work within work -/

theorem nested_sound (setup : Setup) (depth : Nat) : (nested setup depth).Sound setup := by
  induction depth with
  | zero => exact ⟨fun h => absurd h throw_eq_ok, fun h => absurd h throw_eq_ok⟩
  | succ depth ih => exact ⟨fun h F => receiveWith_moves ih h F, fun h F => closeWith_moves ih h F⟩

end Engine
end Switchboard
