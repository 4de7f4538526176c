import Mathlib.Data.List.Induction
import Switchboard.Router

/-! What a router finds, by the history of what it was told. A registration under a key that is neither reserved nor
    taken fixes its chain once for all, from the general handlers known by then; any other is refused and leaves no
    trace. So a lookup finds the chain of the first registration under the packet's number, else of the first under
    its text, else of the last fallback. -/

namespace Switchboard
namespace Router

/-- One thing that a router is told. -/
inductive Instruction (α : Type) where
  | use (handlers : List α)
  | register (route : Route) (own : List α) (last : α)
  | fallback (own : List α) (last : α)

variable {α : Type}

/-- What a router becomes when it is told something, and its answer. A refusal leaves it as it is. -/
def obey (r : Router α) : Instruction α → Router α × Except Fault Unit
  | .use handlers => (r.use handlers, .ok ())
  | .register route own last =>
    match r.register route own last with
    | .ok r => (r, .ok ())
    | .error fault => (r, .error fault)
  | .fallback own last => (r.setFallback own last, .ok ())

/-- The router that was told all of a history, in its order. -/
def after (history : List (Instruction α)) : Router α := history.foldl (fun r i => (r.obey i).1) {}

/-! ### What a history says -/

/-- The general handlers of a history, in the order in which they were added. -/
def generals (history : List (Instruction α)) : List α :=
  history.flatMap fun
    | .use handlers => handlers
    | _ => []

/-- A key that is not reserved was registered. -/
def Known (history : List (Instruction α)) (route : Route) : Prop :=
  route ≠ .id 0 ∧ ∃ own last, .register route own last ∈ history

/-- The first registration of a history under a key made a chain: the general handlers added before it, then its own
    ones, then its last one. -/
def Holds (history : List (Instruction α)) (route : Route) (chain : List α) : Prop :=
  ∃ before own last later, history = before ++ .register route own last :: later ∧ route ≠ .id 0 ∧
    ¬Known before route ∧ chain = generals before ++ own ++ [last]

/-- The last fallback of a history has a chain, which is made in the same way. -/
def FallsBack (history : List (Instruction α)) (chain : List α) : Prop :=
  ∃ before own last later, history = before ++ .fallback own last :: later ∧
    (∀ own' last', .fallback own' last' ∉ later) ∧ chain = generals before ++ own ++ [last]

/-- What a lookup finds after a history. -/
inductive Finds (history : List (Instruction α)) (p : Packet) : Except Fault (List α) → Prop where
  | number {chain} (holds : Holds history (.id p.id) chain) : Finds history p (.ok chain)
  | text {chain} (number : ¬Known history (.id p.id)) (holds : Holds history (.uri p.uri) chain) :
    Finds history p (.ok chain)
  | fallback {chain} (number : ¬Known history (.id p.id)) (text : ¬Known history (.uri p.uri))
    (last : FallsBack history chain) : Finds history p (.ok chain)
  | nothing (number : ¬Known history (.id p.id)) (text : ¬Known history (.uri p.uri))
    (none : ∀ own last, .fallback own last ∉ history) : Finds history p (.error (.noRoute p.uri p.id))

/-- How a registration under a key is answered after a history. -/
inductive Answers (history : List (Instruction α)) (route : Route) : Except Fault Unit → Prop where
  | reserved (reserved : route = .id 0) : Answers history route (.error .idReserved)
  | taken (known : Known history route) : Answers history route (.error (.routeTaken route))
  | accepted (usable : route ≠ .id 0) (unknown : ¬Known history route) : Answers history route (.ok ())

/-! ### Keys -/

/-- The chain that a router has under a key. -/
def under (r : Router α) : Route → Option (List α)
  | .id number => r.ids.lookup number
  | .uri path => r.uris.lookup path

variable {r s : Router α} {history before later : List (Instruction α)} {i : Instruction α} {route : Route}
  {own own' : List α} {last last' : α} {chain : List α} {p : Packet}

/-- A chain that is added under a free key is found under it, and changes nothing under the others. -/
theorem lookup_concat {κ : Type} [DecidableEq κ] {l : List (κ × List α)} {key : κ} (free : l.lookup key = none) (k : κ) :
    (l ++ [(key, chain)]).lookup k = if k = key then some chain else l.lookup k := by
  rw [List.lookup_append, List.lookup_cons]
  by_cases same : k = key
  · rw [if_pos same, same, free, beq_self_eq_true]
    rfl
  · rw [if_neg same, beq_false_of_ne same]
    exact Option.or_none

theorem register_id (r : Router α) (own : List α) (last : α) {number : UInt32} (usable : number ≠ 0) :
    r.register (.id number) own last = if (r.ids.lookup number).isSome then .error (.routeTaken (.id number))
    else .ok { r with ids := r.ids ++ [(number, r.chain own last)] } := if_neg usable

/-- A registration is refused under the reserved key and under one that is taken; else its chain is there under its
    key, and all else is as it was. -/
theorem register_cases (r : Router α) (route : Route) (own : List α) (last : α) :
    (route = .id 0 ∧ r.register route own last = .error .idReserved) ∨
    (route ≠ .id 0 ∧ (r.under route).isSome ∧ r.register route own last = .error (.routeTaken route)) ∨
    (route ≠ .id 0 ∧ r.under route = none ∧ ∃ s, r.register route own last = .ok s ∧ s.general = r.general ∧
      s.fallback = r.fallback ∧ ∀ k, s.under k = if k = route then some (r.chain own last) else r.under k) := by
  cases route with
  | id number =>
    by_cases reserved : number = 0
    · exact .inl ⟨congrArg Route.id reserved, if_pos reserved⟩
    have usable : Route.id number ≠ .id 0 := fun same => reserved (Route.id.inj same)
    have registered := r.register_id own last reserved
    cases found : r.ids.lookup number with
    | some chain =>
      rw [found] at registered
      exact .inr (.inl ⟨usable, Option.isSome_iff_exists.mpr ⟨chain, found⟩, registered⟩)
    | none =>
      rw [found] at registered
      refine .inr (.inr ⟨usable, found, _, registered, rfl, rfl, fun k => ?_⟩)
      cases k with
      | uri path => rfl
      | id k =>
        simp only [Route.id.injEq]
        exact lookup_concat found k
  | uri path =>
    have registered : r.register (.uri path) own last = if (r.uris.lookup path).isSome then
        .error (.routeTaken (.uri path)) else .ok { r with uris := r.uris ++ [(path, r.chain own last)] } := rfl
    cases found : r.uris.lookup path with
    | some chain =>
      rw [found] at registered
      exact .inr (.inl ⟨nofun, Option.isSome_iff_exists.mpr ⟨chain, found⟩, registered⟩)
    | none =>
      rw [found] at registered
      refine .inr (.inr ⟨nofun, found, _, registered, rfl, rfl, fun k => ?_⟩)
      cases k with
      | id k => rfl
      | uri k =>
        simp only [Route.uri.injEq]
        exact lookup_concat found k

/-- A refusal leaves a router as it is. -/
theorem obey_of_error {fault : Fault} (refused : (r.obey i).2 = .error fault) : (r.obey i).1 = r := by
  cases i with
  | use | fallback => cases refused
  | register route own last =>
    rcases answer : r.register route own last with _ | s <;> rw [obey, answer] at refused ⊢
    cases refused

/-! ### What a router keeps of its history -/

/-- A router has the general handlers of a history, its chains under its keys, and its fallback. -/
structure Recalls (history : List (Instruction α)) (r : Router α) : Prop where
  general : r.general = generals history
  holds : ∀ {k chain}, r.under k = some chain → Holds history k chain
  unknown : ∀ {k}, r.under k = none → ¬Known history k
  fallsBack : ∀ {chain}, r.fallback = some chain → FallsBack history chain
  none : r.fallback = none → ∀ own last, .fallback own last ∉ history

theorem generals_append : generals (before ++ later) = generals before ++ generals later := List.flatMap_append

theorem Holds.append (holds : Holds before route chain) : Holds (before ++ later) route chain := by
  obtain ⟨earlier, own, last, rest, rfl, usable, unknown, made⟩ := holds
  exact ⟨earlier, own, last, rest ++ later, by rw [List.append_assoc, List.cons_append], usable, unknown, made⟩

theorem Holds.known (holds : Holds history route chain) : Known history route := by
  obtain ⟨before, own, last, later, rfl, usable, -, -⟩ := holds
  exact ⟨usable, own, last, List.mem_append_right before List.mem_cons_self⟩

theorem FallsBack.append (back : FallsBack before chain) (none : ∀ own last, .fallback own last ∉ later) :
    FallsBack (before ++ later) chain := by
  obtain ⟨earlier, own, last, rest, rfl, final, made⟩ := back
  refine ⟨earlier, own, last, rest ++ later, by rw [List.append_assoc, List.cons_append], fun own' last' mem => ?_, made⟩
  exact (List.mem_append.mp mem).elim (final own' last') (none own' last')

namespace Recalls

/-- What gives no new chain leaves those that there are. -/
theorem append (recalls : Recalls history r) (general : s.general = r.general ++ generals [i])
    (under : ∀ k, s.under k = r.under k) (known : ∀ {k own last}, k ≠ .id 0 → i = .register k own last → r.under k ≠ .none)
    (fallback : s.fallback = r.fallback) (none : ∀ own last, i ≠ .fallback own last) : Recalls (history ++ [i]) s where
  general := by rw [general, recalls.general, generals_append]
  holds found := (recalls.holds ((under _).symm.trans found)).append
  unknown {k} free := by
    have free := (under k).symm.trans free
    rintro ⟨usable, own, last, mem⟩
    rcases List.mem_append.mp mem with mem | mem
    · exact recalls.unknown free ⟨usable, own, last, mem⟩
    · exact known usable (List.mem_singleton.mp mem).symm free
  fallsBack found := (recalls.fallsBack (fallback.symm.trans found)).append fun own last mem =>
    none own last (List.mem_singleton.mp mem).symm
  none empty own last mem := by
    rcases List.mem_append.mp mem with mem | mem
    · exact recalls.none (fallback.symm.trans empty) own last mem
    · exact none own last (List.mem_singleton.mp mem).symm

/-- A registration under a free key gives it its chain. -/
theorem accept (recalls : Recalls history r) (usable : route ≠ .id 0) (free : r.under route = .none)
    (general : s.general = r.general) (fallback : s.fallback = r.fallback)
    (under : ∀ k, s.under k = if k = route then some (r.chain own last) else r.under k) :
    Recalls (history ++ [.register route own last]) s where
  general := by rw [general, recalls.general, generals_append, generals]; exact (List.append_nil _).symm
  holds {k chain} found := by
    rw [under k] at found
    split at found
    · rename_i same
      subst same
      cases found
      exact ⟨history, own, last, [], rfl, usable, recalls.unknown free, by rw [chain, recalls.general]⟩
    · exact (recalls.holds found).append
  unknown {k} none := by
    rw [under k] at none
    split at none
    · cases none
    · rename_i other
      rintro ⟨usable, own, last, mem⟩
      rcases List.mem_append.mp mem with mem | mem
      · exact recalls.unknown none ⟨usable, own, last, mem⟩
      · cases List.mem_singleton.mp mem
        exact other rfl
  fallsBack found := (recalls.fallsBack (fallback.symm.trans found)).append fun own last mem =>
    nomatch List.mem_singleton.mp mem
  none empty own last mem := by
    rcases List.mem_append.mp mem with mem | mem
    · exact recalls.none (fallback.symm.trans empty) own last mem
    · cases List.mem_singleton.mp mem

/-- A router that is told one thing more recalls that too. -/
theorem obey (recalls : Recalls history r) (i : Instruction α) : Recalls (history ++ [i]) (r.obey i).1 := by
  cases i with
  | use handlers =>
    have general : generals [.use handlers] = handlers := List.append_nil handlers
    exact recalls.append (congrArg (r.general ++ ·) general.symm) (fun _ => rfl) nofun rfl nofun
  | register route own last =>
    have refused {fault : Fault} (answer : r.register route own last = .error fault)
        (taken : route ≠ .id 0 → r.under route ≠ .none) :
        Recalls (history ++ [.register route own last]) (r.obey (.register route own last)).1 := by
      rw [Router.obey, answer]
      refine recalls.append (List.append_nil _).symm (fun _ => rfl) (fun usable same => ?_) rfl nofun
      cases same
      exact taken usable
    rcases r.register_cases route own last with ⟨reserved, answer⟩ | ⟨-, taken, answer⟩ |
        ⟨usable, free, s, answer, general, fallback, under⟩
    · exact refused answer fun usable => absurd reserved usable
    · exact refused answer fun _ => Option.isSome_iff_ne_none.mp taken
    · rw [Router.obey, answer]
      exact recalls.accept usable free general fallback under
  | fallback own last =>
    exact {
      general := by rw [generals_append]; exact recalls.general.trans (List.append_nil _).symm
      holds := fun found => (recalls.holds found).append
      unknown := fun {k} free ⟨usable, own, last, mem⟩ => by
        rcases List.mem_append.mp mem with mem | mem
        · exact recalls.unknown free ⟨usable, own, last, mem⟩
        · cases List.mem_singleton.mp mem
      fallsBack := fun found => by
        cases found
        exact ⟨history, own, last, [], rfl, nofun, by rw [chain, recalls.general]⟩
      none := nofun }

/-- Whatever a router was told, it recalls. -/
theorem after (history : List (Instruction α)) : Recalls history (after history) := by
  induction history using List.reverseRecOn with
  | nil => exact {
      general := rfl
      holds := fun {k _} found => by cases k <;> exact nomatch found
      unknown := fun _ ⟨_, _, _, mem⟩ => nomatch mem
      fallsBack := nofun
      none := nofun }
  | append_singleton history i recalls =>
    have told : Router.after (history ++ [i]) = ((Router.after history).obey i).1 := List.foldl_append
    exact told ▸ recalls.obey i

theorem known (recalls : Recalls history r) (found : r.under route ≠ .none) : Known history route := by
  obtain ⟨chain, found⟩ := Option.ne_none_iff_exists'.mp found
  exact (recalls.holds found).known

/-- A packet without a chain under its number has none that is known. -/
theorem not_known_of_byId (recalls : Recalls history r) (number : r.byId p = .none) : ¬Known history (.id p.id) := by
  intro known
  have usable : p.id ≠ 0 := fun zero => known.1 (congrArg Route.id zero)
  exact recalls.unknown (k := .id p.id) ((if_neg usable).symm.trans number) known

/-- What is looked up is found where the history says. -/
theorem finds (recalls : Recalls history r) (p : Packet) : Finds history p (r.resolve p) := by
  unfold resolve
  cases number : r.byId p with
  | some chain =>
    have usable : p.id ≠ 0 := fun zero => nomatch (if_pos zero).symm.trans number
    exact .number (recalls.holds (k := .id p.id) ((if_neg usable).symm.trans number))
  | none =>
    have number := recalls.not_known_of_byId number
    cases text : r.uris.lookup p.uri with
    | some chain => exact .text number (recalls.holds text)
    | none =>
      have text : ¬Known history (.uri p.uri) := recalls.unknown text
      cases fallback : r.fallback with
      | some chain => exact .fallback number text (recalls.fallsBack fallback)
      | none => exact .nothing number text (recalls.none fallback)

theorem answers (recalls : Recalls history r) (route : Route) (own : List α) (last : α) :
    Answers history route (r.obey (.register route own last)).2 := by
  rw [Router.obey]
  rcases r.register_cases route own last with ⟨reserved, answer⟩ | ⟨-, taken, answer⟩ | ⟨usable, free, s, answer, -⟩
  · rw [answer]
    exact .reserved reserved
  · rw [answer]
    exact .taken (recalls.known (Option.isSome_iff_ne_none.mp taken))
  · rw [answer]
    exact .accepted usable (recalls.unknown free)

end Recalls

/-- After any history a lookup finds the chain of the first registration under the packet's number, if there is one;
    else that of the first under its text; else that of the last fallback; else nothing. A chain is the general
    handlers that were added before its registration, then its own, then its last one. Registrations are refused under
    the number 0 and under a key that is known, and what is refused might as well not have been asked for. -/
theorem lookups_follow_the_history (history : List (Instruction α)) :
    (∀ p, Finds history p ((after history).resolve p)) ∧
    (∀ route own last, Answers history route ((after history).obey (.register route own last)).2) ∧
    (∀ i later, (∃ fault, ((after history).obey i).2 = .error fault) →
      after (history ++ i :: later) = after (history ++ later)) ∧
    Fault.idReserved.code = .unexpectedCode ∧ (∀ route, (Fault.routeTaken route).code = .routeConflict) ∧
    ∀ uri id, (Fault.noRoute uri id).code = .routeNotFound := by
  have recalls : Recalls history (after history) := .after history
  refine ⟨recalls.finds, recalls.answers, fun i later ⟨fault, refused⟩ => ?_, rfl, fun _ => rfl, fun _ _ => rfl⟩
  have kept : ((after history).obey i).1 = after history := obey_of_error refused
  unfold after
  rw [List.foldl_append, List.foldl_append, List.foldl_cons]
  exact congrArg (List.foldl _ · later) kept

end Router
end Switchboard
