import Switchboard.Proofs.Engine.Stages
import Switchboard.Proofs.Link.Speech

/-! Who says nothing on the line. Callbacks are run with responses, and what is done with a connection from its own side
    runs no handlers but callbacks: neither writes a response, and neither hears one. -/

namespace Switchboard

/-- A connection without filters and without a limit on its load, whose handlers answer what they are given. No chain is
    longer than fits in memory. -/
structure Setup.Upright (setup : Setup) : Prop where
  hook : setup.hook = .replies
  dataFilters : setup.dataFilters = []
  packetFilters : setup.packetFilters = []
  unlimited : setup.overloaded = none
  sincere : ∀ {q chain}, setup.router.resolve q = .ok chain → ∀ handler ∈ chain, handler.Sincere
  filter : ∀ q, (setup.responseFilter q).Sincere
  short : ∀ {q chain}, setup.router.resolve q = .ok chain → chain.length < abortIndex

/-- The packet of a context is no request. -/
def Context.Unasked (c : Context) : Prop := c.parcel.command ≠ .request

namespace Engine

variable {setup : Setup} {inner : Inner} {s t : Engine}

section

variable (hushed : Hushed setup.framing (fun _ => True) inner.close)
include hushed

/-! ### Handlers -/

theorem perform_hushed {onNext : Context → EngineM Context}
    (next : ∀ c : Context, c.Unasked → Hushed setup.framing Context.Unasked (onNext c)) {p : Program}
    (sincere : p.Sincere) :
    ∀ c : Context, c.Unasked → Hushed setup.framing Context.Unasked (perform setup inner onNext p c) := by
  induction sincere with
  | done => exact fun c unasked => .pure unasked
  | next _ ih => exact fun c unasked => (next c unasked).bind ih
  | abort _ ih => exact fun c unasked => ih c.abort unasked
  | @edit change rest command _ _ ih =>
    intro c unasked
    refine ih (c.edit change) ?_
    unfold Context.Unasked at unasked ⊢
    exact (command c.parcel.toPacket).symm ▸ unasked
  | @setPeer peer _ _ ih => exact fun c unasked => ih (c.setPeer peer) unasked
  | look _ ih =>
    exact fun c unasked => Hushed.get.bind fun _ _ => (record_hushed (e := .looked _) trivial).bind fun _ _ => ih _ c unasked
  | @respond content metadata rest _ ih =>
    intro c unasked
    -- Only to requests is it possible to respond.
    have refused : Hushed setup.framing (fun _ => True) (respond setup inner c content metadata) := by
      intro s r t plainly h
      obtain ⟨spoke, request⟩ := respond_spoke plainly h
      rcases r with fault | _
      · have none : c.parcel.toPacket.replied? setup.framing.layout metadata content (.error fault) = none := by
          cases content <;> rfl
        rw [none] at spoke
        exact ⟨spoke, trivial⟩
      · exact absurd (request rfl) unasked
    exact refused.bind fun result _ => ih result c unasked
  | close _ ih => exact fun c unasked => hushed.bind fun _ _ => ih c unasked
  | notify _ ih => exact fun c unasked => (notify_hushed _).bind fun result _ => ih result c unasked
  | callAsync callbacks _ _ ih =>
    exact fun c unasked => (callAsync_hushed callbacks).bind fun result _ => ih result c unasked
  | report _ ih => exact fun c unasked => (record_hushed (e := .event _) trivial).bind fun _ _ => ih c unasked
  | reportCounts _ ih =>
    exact fun c unasked => Hushed.get.bind fun _ _ => (record_hushed (e := .event _) trivial).bind fun _ _ => ih c unasked

omit hushed in
theorem within_hushed {run : Context → EngineM Context}
    (runs : ∀ c : Context, c.Unasked → Hushed setup.framing Context.Unasked (run c)) (c : Context) (unasked : c.Unasked) :
    Hushed setup.framing Context.Unasked (within run c) := by
  unfold within
  refine (runs c.enter unasked).bind fun c' unasked' => ?_
  dsimp only
  split
  · exact release_hushed c'.leave unasked' nofun
  · exact .pure unasked'

theorem runFrom_hushed (handlers : List Program) (sincere : ∀ handler ∈ handlers, handler.Sincere) :
    ∀ (position : Nat) (c : Context), c.Unasked →
      Hushed setup.framing Context.Unasked (runFrom setup inner position handlers c) := by
  induction handlers with
  | nil => exact fun _ c unasked => .pure unasked
  | cons handler rest ih =>
    intro position c unasked
    have later := ih (fun h mem => sincere h (List.mem_cons_of_mem handler mem)) (position + 1)
    unfold runFrom
    split
    · refine (record_hushed (e := .started position) trivial).bind fun _ _ => ?_
      have handled := perform_hushed hushed (within_hushed later) (sincere handler List.mem_cons_self)
      exact (handled c.start unasked).bind later
    · exact .pure unasked

/-- Callbacks are run with a packet that is no request. -/
theorem deliver_hushed (upright : setup.Upright) {pending : Pending} (sincere : pending.Sincere) {p : Parcel}
    (unasked : p.command ≠ .request) : Hushed setup.framing (fun _ => True) (deliver setup inner pending p) := by
  refine (record_hushed (e := .delivered pending p.toPacket) trivial).bind fun _ _ => ?_
  refine takeContext_hushed.bind fun c _ => ?_
  have next := within_hushed (runFrom_hushed hushed pending.callbacks sincere 0)
  have run := perform_hushed hushed next (upright.filter pending.request.toPacket) (c.bind p false) unasked
  have driven : Hushed setup.framing (fun _ => True) (drive _ (c.bind p false)) :=
    run.bind fun c' unasked' => (release_hushed c' unasked' nofun).bind fun c'' _ => putContext_hushed c''
  exact driven.bind fun _ _ => putParcel_hushed pending.request

/-! ### Closing -/

omit hushed in
theorem synthesize_hushed {request : Packet} {fault : Fault} :
    Hushed setup.framing (fun p => p.command ≠ .request) (synthesize request fault) :=
  answer_hushed.bind fun p response => .pure fun request => by
    change p.command = .request at request
    exact nomatch response.1.symm.trans request

theorem endAll_hushed (upright : setup.Upright) (sessions : List (UInt64 × Session)) :
    (∀ pending ∈ pledges sessions, pending.Sincere) →
      Hushed setup.framing (fun _ => True) (endAll setup inner sessions) := by
  induction sessions with
  | nil => exact fun _ => .pure trivial
  | cons e rest ih =>
    obtain ⟨n, entry⟩ := e
    cases entry with
    | waiting ticket listening => exact ih
    | callback pending =>
      intro sincere
      refine synthesize_hushed.bind fun p unasked => ?_
      refine (deliver_hushed hushed upright (sincere pending List.mem_cons_self) unasked).bind fun _ _ => ?_
      exact ih fun p mem => sincere p (List.mem_cons_of_mem pending mem)

theorem closeWith_hushed (upright : setup.Upright) : Hushed setup.framing (fun _ => True) (closeWith setup inner) := by
  refine (record_hushed (e := .closed) trivial).bind fun _ _ => ?_
  intro s x t plainly h
  obtain ⟨sessions, u, hdrain, h⟩ := bind_eq_ok.mp h
  obtain ⟨rfl, rfl⟩ := Prod.mk.inj (modifyGet_eq_ok.mp hdrain)
  have drained : Spoke setup.framing s [] [] { s with table := { entries := [], closed := true } } :=
    .of_journal plainly rfl rfl nofun fun _ => id
  have swept : (pledges (setup.sweep s.table.entries)).Perm (pledges s.table.entries) :=
    (setup.sweep_perm s.table.entries).filterMap _
  have ended := endAll_hushed hushed upright (setup.sweep s.table.entries) fun p mem =>
    plainly.pledged p (swept.mem_iff.mp mem)
  exact ⟨drained.hush (ended _ _ _ drained.plainly h).1, trivial⟩

end

theorem nested_hushed (upright : setup.Upright) :
    ∀ depth, Hushed setup.framing (fun _ => True) (nested setup depth).close
  | 0 => fun _ _ _ _ h => absurd h throw_eq_ok
  | depth + 1 => closeWith_hushed (nested_hushed upright depth) upright

end Engine
end Switchboard
