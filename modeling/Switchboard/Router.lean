import Switchboard.Packet.Basic
import Switchboard.Fault

/-! Which handlers a packet meets. A chain is fixed when it is registered: the general handlers known by
    then, the route's own, and its last one. A numeric key other than 0 is looked up first, then the
    text key, then the fallback is taken. -/

namespace Switchboard

/-- The routes of a connection and their chains of handlers. -/
structure Router (α : Type) where
  general : List α := []
  uris : List (String × List α) := []
  ids : List (UInt32 × List α) := []
  fallback : Option (List α) := none

namespace Router

variable {α : Type}

instance : Inhabited (Router α) := ⟨{}⟩

/-- Adds general handlers, which later registrations begin with. -/
def use (r : Router α) (handlers : List α) : Router α := { r with general := r.general ++ handlers }

/-- The chain that a registration makes. -/
def chain (r : Router α) (own : List α) (last : α) : List α := r.general ++ own ++ [last]

/-- Registers a chain under a key that is neither reserved nor taken. -/
def register (r : Router α) (route : Route) (own : List α) (last : α) : Except Fault (Router α) :=
  match route with
  | .id number =>
    if number = 0 then .error .idReserved
    else if (r.ids.lookup number).isSome then .error (.routeTaken route)
    else .ok { r with ids := r.ids ++ [(number, r.chain own last)] }
  | .uri path =>
    if (r.uris.lookup path).isSome then .error (.routeTaken route)
    else .ok { r with uris := r.uris ++ [(path, r.chain own last)] }

/-- Sets the chain for packets without a route of their own. -/
def setFallback (r : Router α) (own : List α) (last : α) : Router α :=
  { r with fallback := some (r.chain own last) }

/-- The chain registered under the packet's numeric key, if it has one. -/
def byId (r : Router α) (p : Packet) : Option (List α) :=
  if p.id = 0 then none else r.ids.lookup p.id

def resolve (r : Router α) (p : Packet) : Except Fault (List α) :=
  match (r.byId p).or ((r.uris.lookup p.uri).or r.fallback) with
  | some handlers => .ok handlers
  | none => .error (.noRoute p.uri p.id)

def chains (r : Router α) : List (List α) :=
  r.ids.map Prod.snd ++ (r.uris.map Prod.snd ++ r.fallback.toList)

theorem mem_chains_of_resolve {r : Router α} {p : Packet} {chain : List α}
    (h : r.resolve p = .ok chain) : chain ∈ r.chains := by
  have of_lookup : ∀ {κ : Type} [BEq κ] [LawfulBEq κ] {key : κ} {l : List (κ × List α)},
      l.lookup key = some chain → chain ∈ l.map Prod.snd := by
    intro κ _ _ key l found
    obtain ⟨before, after, rfl, -⟩ := List.lookup_eq_some_iff.mp found
    simp
  unfold resolve at h
  split at h
  · rename_i handlers found
    cases h
    rcases Option.or_eq_some_iff.mp found with number | ⟨-, other⟩
    · unfold byId at number
      split at number
      · cases number
      · exact List.mem_append_left _ (of_lookup number)
    · refine List.mem_append_right _ ?_
      rcases Option.or_eq_some_iff.mp other with text | ⟨-, fallback⟩
      · exact List.mem_append_left _ (of_lookup text)
      · exact List.mem_append_right _ (by simp [fallback])
  · cases h

end Router
end Switchboard
