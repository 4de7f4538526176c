import Switchboard.Proofs.Engine.Table

/-! What the journal says of one call. The journal is read from its beginning: what was said first of how a
    call was made, when its wait began and what ended its session is what counts. -/

namespace Switchboard

/-- How a ticket came about. -/
inductive Made where
  | call (m : Outbound)
  | async (m : Outbound) (callbacks : List Program)

namespace Made

def message : Made → Outbound
  | call m | async m _ => m

/-- Someone waits for the reply, and is not only called back. -/
def Waits : Made → Prop
  | call _ => True
  | async m _ => m.timeout.isSome

instance : DecidablePred Waits
  | call _ => .isTrue trivial
  | async m _ => inferInstanceAs (Decidable (m.timeout.isSome = true))

end Made

/-- What became of the session of a call. -/
inductive Fate where
  | unregistered
  | awaiting (request : Packet)
  | replied (request reply : Packet)
  | closed (request : Packet)
  | expired (request : Packet) (now : Nat)
  | removed (request : Packet)

namespace Fate

/-- The request that was registered. -/
def request? : Fate → Option Packet
  | unregistered => none
  | awaiting r | replied r _ | closed r | expired r _ | removed r => some r

/-- A session is registered once. -/
def register (request : Packet) : Fate → Fate
  | unregistered => awaiting request
  | fate => fate

/-- A session ends once. -/
def settle (how : Packet → Fate) : Fate → Fate
  | awaiting r => how r
  | fate => fate

end Fate

/-- What the journal says of one call. -/
structure Account where
  made : Option Made := none
  fate : Fate := .unregistered
  /-- When a wait for the reply began. -/
  began : Option Nat := none
  /-- Why the request was not written. -/
  failed : Option Fault := none
  /-- The entries by which the call ended; there is at most one. -/
  ends : List Entry := []

/-- An entry is about the call with a ticket. -/
def Entry.concerns (ticket : Nat) : Entry → Bool
  | .called t _ | .calledAsync t _ _ | .registered t _ | .began t _ | .unsent t _ | .matched t _
  | .expired t _ | .removed t | .cancelled t | .finished t _ => t == ticket
  | .delivered pending _ => pending.ticket == ticket
  | .closed => true
  | _ => false

/-- The account once an entry about the call is made. -/
def Account.told (a : Account) (e : Entry) : Account :=
  match e with
  | .called _ m => { a with made := a.made.or (some (.call m)) }
  | .calledAsync _ m callbacks => { a with made := a.made.or (some (.async m callbacks)) }
  | .registered _ request => { a with fate := a.fate.register request }
  | .began _ now => { a with began := a.began.or (some now) }
  | .unsent _ fault => { a with failed := a.failed.or (some fault) }
  | .matched _ p => { a with fate := a.fate.settle fun r => .replied r p }
  | .expired _ now => { a with fate := a.fate.settle fun r => .expired r now }
  | .removed _ => { a with fate := a.fate.settle .removed }
  | .closed => { a with fate := a.fate.settle .closed }
  | .cancelled _ | .finished _ _ | .delivered _ _ => { a with ends := e :: a.ends }
  | _ => a

section

variable {a : Account} {r : Packet} {t : Nat} (awaiting : a.fate = .awaiting r)
include awaiting

theorem Account.told_matched {p : Packet} : a.told (.matched t p) = { a with fate := .replied r p } := by
  simp [told, awaiting, Fate.settle]

theorem Account.told_expired {now : Nat} : a.told (.expired t now) = { a with fate := .expired r now } := by
  simp [told, awaiting, Fate.settle]

theorem Account.told_removed : a.told (.removed t) = { a with fate := .removed r } := by
  simp [told, awaiting, Fate.settle]

theorem Account.told_closed : a.told .closed = { a with fate := .closed r } := by
  simp [told, awaiting, Fate.settle]

end

/-- What a journal says of the call with a ticket. -/
def account (ticket : Nat) : List Entry → Account
  | [] => {}
  | e :: earlier => if e.concerns ticket then (account ticket earlier).told e else account ticket earlier

section

variable {ticket : Nat} {e : Entry} {J K : List Entry}

@[simp] theorem account_nil : account ticket [] = {} := rfl

theorem account_cons_of_concerns (h : e.concerns ticket = true) :
    account ticket (e :: J) = (account ticket J).told e := if_pos h

theorem account_cons_of_not (h : e.concerns ticket = false) : account ticket (e :: J) = account ticket J := by
  simp [account, h]

theorem account_append (h : ∀ e ∈ K, e.concerns ticket = false) : account ticket (K ++ J) = account ticket J := by
  induction K with
  | nil => rfl
  | cons e K ih =>
    rw [List.cons_append, account_cons_of_not (h e List.mem_cons_self)]
    exact ih fun e' he' => h e' (List.mem_cons_of_mem e he')

/-! ### What is settled stays -/

/-- What one account says of how a call was made and registered, the other says too. -/
structure Account.Extends (a b : Account) : Prop where
  made : ∀ {m}, a.made = some m → b.made = some m
  request : ∀ {r}, a.fate.request? = some r → b.fate.request? = some r

theorem Account.Extends.refl (a : Account) : a.Extends a := ⟨id, id⟩

theorem Account.Extends.trans {a b c : Account} (h : a.Extends b) (h' : b.Extends c) : a.Extends c :=
  ⟨fun hm => h'.made (h.made hm), fun hr => h'.request (h.request hr)⟩

theorem Fate.request?_settle {f : Fate} {how : Packet → Fate} (h : ∀ r, (how r).request? = some r) :
    (f.settle how).request? = f.request? := by
  cases f with
  | awaiting r => exact h r
  | _ => rfl

theorem Account.extends_told (a : Account) (e : Entry) : a.Extends (a.told e) := by
  cases e with
  | called t m => exact ⟨fun h => by simp [told, h], id⟩
  | calledAsync t m callbacks => exact ⟨fun h => by simp [told, h], id⟩
  | registered t request =>
    refine ⟨id, ?_⟩
    intro r h
    -- A second registration would not change the request that was registered first.
    cases hfate : a.fate <;> simp_all [told, Fate.register, Fate.request?]
  | matched t p => exact ⟨id, fun h => by rwa [told, Fate.request?_settle fun _ => rfl]⟩
  | expired t now => exact ⟨id, fun h => by rwa [told, Fate.request?_settle fun _ => rfl]⟩
  | removed t => exact ⟨id, fun h => by rwa [told, Fate.request?_settle fun _ => rfl]⟩
  | closed => exact ⟨id, fun h => by rwa [told, Fate.request?_settle fun _ => rfl]⟩
  | _ => exact ⟨id, id⟩

theorem extends_account (K J : List Entry) : (account ticket J).Extends (account ticket (K ++ J)) := by
  induction K with
  | nil => exact .refl _
  | cons e K ih =>
    refine ih.trans ?_
    rw [List.cons_append]
    cases h : e.concerns ticket with
    | true =>
      rw [account_cons_of_concerns h]
      exact Account.extends_told _ _
    | false =>
      rw [account_cons_of_not h]
      exact .refl _

end

end Switchboard
