import Switchboard.Proofs.Engine.Steps

/-! Handlers as moves. A handler keeps the packet of its context in hand until the context gives it back, and
    whatever it does in between is made of moves. -/
namespace Switchboard
namespace Engine

variable {setup : Setup} {inner : Inner} {s t : Engine}

/-! ### Contexts -/

theorem moves_load (load : Int) (F : Hands) : Moves setup s F { s with load } F := by
  simpa using (Move.load load).moves F

theorem moves_contexts (contexts : ContextPool) (F : Hands) : Moves setup s F { s with contexts } F := by
  simpa using (Move.contexts contexts).moves F

/-- What a context has in hand: its packet, until it is given back. -/
def held (c : Context) : Hands := if c.released then 0 else {.parcel}

theorem held_of_released {c : Context} (h : c.released = true) : held c = 0 := if_pos h

theorem held_of_not_released {c : Context} (h : c.released = false) : held c = {.parcel} := by simp [held, h]

theorem release_moves {c c' : Context} (h : release c s = .ok (c', t)) (F : Hands) :
    Moves setup s (held c + F) t F ∧ c'.released = true := by
  unfold release at h
  split at h
  · rename_i hreleased
    obtain ⟨rfl, rfl⟩ := pure_eq_ok.mp h
    rw [held_of_released hreleased, Multiset.zero_add]
    exact ⟨.refl, hreleased⟩
  · rename_i hheld
    obtain ⟨_, u, hput, h⟩ := bind_eq_ok.mp h
    obtain rfl := putParcel_eq_ok.mp hput
    obtain ⟨_, v, hload, h⟩ := bind_eq_ok.mp h
    obtain rfl := modify_eq_ok.mp hload
    obtain ⟨rfl, rfl⟩ := pure_eq_ok.mp h
    rw [held_of_not_released (by simpa using hheld), Multiset.singleton_add]
    have loaded : Moves setup s (.parcel ::ₘ F)
        { s with issuer := s.issuer.put c.parcel, load := if c.counted then s.load - 1 else s.load } F :=
      (moves_put c.parcel F).trans (moves_load _ F)
    exact ⟨loaded.trans (moves_note (e := .released c.parcel.toPacket) trivial F), rfl⟩

/-- What runs handlers on a context keeps the context's packet, unless it gives it back. -/
def Runs (setup : Setup) (run : Context → EngineM Context) : Prop :=
  ∀ {c c' : Context} {s t : Engine}, run c s = .ok (c', t) → ∀ F, Moves setup s (held c + F) t (held c' + F)

/-! ### Programs and chains -/

theorem perform_runs (sound : inner.Sound setup) {onNext : Context → EngineM Context} (runs : Runs setup onNext) :
    ∀ handler : Program, Runs setup (perform setup inner onNext handler)
  | .done, c, c', s, t, h, F => by
    obtain ⟨rfl, rfl⟩ := pure_eq_ok.mp h
    exact .refl
  -- By recursion on what a handler goes on to do; the packet of its context stays with the context.
  | .next rest, c, c', s, t, h, F => by
    obtain ⟨c₁, u, hnext, h⟩ := bind_eq_ok.mp h
    exact (runs hnext F).trans (perform_runs sound runs rest h F)
  | .abort rest, c, c', s, t, h, F => perform_runs sound runs rest h F
  | .edit change rest, c, c', s, t, h, F => perform_runs sound runs rest h F
  | .setPeer peer rest, c, c', s, t, h, F => perform_runs sound runs rest h F
  | .look rest, c, c', s, t, h, F => by
    obtain ⟨_, _, hget, h⟩ := bind_eq_ok.mp h
    obtain ⟨rfl, rfl⟩ := get_eq_ok.mp hget
    obtain ⟨_, u, hrec, h⟩ := bind_eq_ok.mp h
    obtain rfl := record_eq_ok.mp hrec
    exact (moves_note (e := .looked s.load) trivial _).trans (perform_runs sound runs (rest _) h F)
  | .respond content metadata rest, c, c', s, t, h, F => by
    obtain ⟨result, u, hrespond, h⟩ := bind_eq_ok.mp h
    exact (respond_moves sound hrespond _).trans (perform_runs sound runs (rest result) h F)
  | .receive frame rest, c, c', s, t, h, F => by
    obtain ⟨result, u, hreceive, h⟩ := bind_eq_ok.mp h
    exact (sound.receive hreceive _).trans (perform_runs sound runs (rest result) h F)
  | .close rest, c, c', s, t, h, F => by
    obtain ⟨_, u, hclose, h⟩ := bind_eq_ok.mp h
    exact (sound.close hclose _).trans (perform_runs sound runs rest h F)
  | .notify m rest, c, c', s, t, h, F => by
    obtain ⟨result, u, hnotify, h⟩ := bind_eq_ok.mp h
    exact (notify_moves sound hnotify _).trans (perform_runs sound runs (rest result) h F)
  | .callAsync m callbacks rest, c, c', s, t, h, F => by
    obtain ⟨result, u, hcall, h⟩ := bind_eq_ok.mp h
    exact (callAsync_moves sound hcall _).trans (perform_runs sound runs (rest result) h F)
  | .report event rest, c, c', s, t, h, F => by
    obtain ⟨_, u, hrec, h⟩ := bind_eq_ok.mp h
    obtain rfl := record_eq_ok.mp hrec
    exact (moves_note (e := .event event) trivial _).trans (perform_runs sound runs rest h F)
  | .reportCounts source rest, c, c', s, t, h, F => by
    obtain ⟨_, _, hget, h⟩ := bind_eq_ok.mp h
    obtain ⟨rfl, rfl⟩ := get_eq_ok.mp hget
    obtain ⟨_, u, hrec, h⟩ := bind_eq_ok.mp h
    obtain rfl := record_eq_ok.mp hrec
    exact (moves_note (e := .event { source with sight := .counts s.counts }) trivial _).trans
      (perform_runs sound runs rest h F)

theorem within_runs {run : Context → EngineM Context} (runs : Runs setup run) : Runs setup (within run) := by
  intro c c' s t h F
  unfold within at h
  obtain ⟨c₁, u, hrun, h⟩ := bind_eq_ok.mp h
  have inside : Moves setup s (held c + F) u (held c₁ + F) := runs hrun F
  split at h
  · obtain ⟨released, hc'⟩ := release_moves h F
    rw [held_of_released hc', Multiset.zero_add]
    exact inside.trans released
  · obtain ⟨rfl, rfl⟩ := pure_eq_ok.mp h
    exact inside

theorem runFrom_runs (sound : inner.Sound setup) (handlers : List Program) :
    ∀ position, Runs setup (runFrom setup inner position handlers) := by
  induction handlers with
  | nil =>
    intro position c c' s t h F
    obtain ⟨rfl, rfl⟩ := pure_eq_ok.mp h
    exact .refl
  | cons handler rest ih =>
    intro position c c' s t h F
    unfold runFrom at h
    split at h
    · obtain ⟨_, u, hrec, h⟩ := bind_eq_ok.mp h
      obtain rfl := record_eq_ok.mp hrec
      obtain ⟨c₁, v, hperform, h⟩ := bind_eq_ok.mp h
      have handled : Moves setup _ (held c + F) v (held c₁ + F) :=
        perform_runs sound (within_runs (ih (position + 1))) handler hperform F
      exact ((moves_note (e := .started position) trivial _).trans handled).trans (ih (position + 1) h F)
    · obtain ⟨rfl, rfl⟩ := pure_eq_ok.mp h
      exact .refl

theorem next_runs (sound : inner.Sound setup) (chain : List Program) : Runs setup (next setup inner chain) :=
  within_runs (runFrom_runs sound chain 0)

/-! ### Callbacks -/

theorem drive_moves {entry : Context → EngineM Context} (runs : Runs setup entry) {c : Context} {x : Unit}
    (h : drive entry c s = .ok (x, t)) (F : Hands) : Moves setup s (held c + F) t F := by
  unfold drive at h
  obtain ⟨c₁, u, hentry, h⟩ := bind_eq_ok.mp h
  obtain ⟨c₂, v, hrelease, h⟩ := bind_eq_ok.mp h
  obtain rfl := putContext_eq_ok.mp h
  exact ((runs hentry F).trans (release_moves hrelease F).1).trans (moves_contexts _ F)

/-- Running callbacks uses up two packets: the one that they are run with, and the request. -/
theorem deliver_moves (sound : inner.Sound setup) {pending : Pending} {p : Parcel} {x : Unit}
    (h : deliver setup inner pending p s = .ok (x, t)) (F : Hands) :
    Moves setup (s.note (.delivered pending p.toPacket)) (.parcel ::ₘ .parcel ::ₘ F) t F := by
  unfold deliver at h
  obtain ⟨_, u, hrec, h⟩ := bind_eq_ok.mp h
  obtain rfl := record_eq_ok.mp hrec
  obtain ⟨c, v, hcontext, h⟩ := bind_eq_ok.mp h
  obtain ⟨-, rfl⟩ := takeContext_eq_ok.mp hcontext
  obtain ⟨_, w, hdrive, h⟩ := bind_eq_ok.mp h
  obtain rfl := putParcel_eq_ok.mp h
  have driven := drive_moves (perform_runs sound (next_runs sound pending.callbacks) _) hdrive (.parcel ::ₘ F)
  -- The context gives back the response; the request is put afterwards.
  rw [held_of_not_released (c := c.bind p false) rfl, Multiset.singleton_add] at driven
  exact ((moves_contexts _ _).trans driven).trans (moves_put _ F)

theorem synthesize_eq_ok {request : Packet} {fault : Fault} {p : Parcel}
    (h : synthesize request fault s = .ok (p, t)) :
    p.toPacket = request.faultReply fault ∧ t = { s with issuer := s.issuer.get.2 } := by
  unfold synthesize at h
  obtain ⟨q, u, hanswer, h⟩ := bind_eq_ok.mp h
  obtain ⟨rfl, rfl⟩ := answer_eq_ok.mp hanswer
  obtain ⟨rfl, rfl⟩ := pure_eq_ok.mp h
  exact ⟨rfl, rfl⟩

end Engine
end Switchboard
