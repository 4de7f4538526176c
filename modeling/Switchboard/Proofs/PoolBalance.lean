import Switchboard.Proofs.Callbacks

/-! The packets that are out of the pool. Between two things done with a connection each of them is the
    request of callbacks in the table or of a wait, or a reply that nobody has collected. -/

namespace Switchboard
namespace Engine

variable {setup : Setup} {s : Engine}

/-- Every packet out of the pool is worth one, and nothing else is worth anything. -/
def Rates.each : Rates where
  packet := 1

theorem Rates.story_each (J : List Entry) : Rates.each.story J = 0 := by
  induction J with
  | nil => rfl
  | cons e J ih =>
    have none : Rates.each.said e = 0 := by
      cases e with
      | returned t result => rcases result with fault | _ <;> rfl
      | _ => rfl
    rw [Rates.story_cons, ih, none]
    rfl

theorem Rates.pledge_each (ticket : Nat) : Rates.each.pledge ticket = 1 := rfl

theorem Rates.seats_each (sessions : List (UInt64 × Session)) :
    Rates.each.seats sessions = (pledges sessions).length := by
  simp [Rates.seats_eq_sum, Rates.pledge_each]

theorem Rates.hands_each (s : Engine) : Rates.each.hands (s.estate 0) = s.waits.length := by
  have calls : (s.calls.map fun c => Rates.each.call c.ticket).sum = 0 := by simp [Rates.each]
  rw [Rates.hands_estate, calls]
  simp [Rates.pledge_each]

/-- Where no call or wait is in progress no reply is kept. -/
theorem Attended.mail_eq_nil (attended : Attended s 0) (calls : s.calls = []) (waits : s.waits = []) : s.mail = [] := by
  refine List.eq_nil_iff_forall_not_mem.mpr fun ⟨t, p⟩ mem => ?_
  have := attended.mail mem
  unfold estate at this
  rw [calls, waits] at this
  simp at this

/-- What is out of the pool of a connection that shares it with nobody is what callbacks, waits and
    uncollected replies hold, as long as no call is given up and no request that was answered fails to be
    written. When no call is left everything is back. -/
theorem packets_balance (run : Reachable setup false s) (few : s.issuer.drawn ≤ numbers)
    (used : setup.spawner ≠ .drop) (careful : Careful s.journal) :
    s.issuer.pool.gets =
      s.issuer.pool.puts + (pledges s.table.entries).length + s.waits.length + s.mail.length ∧
    (s.calls = [] → s.waits = [] → pledges s.table.entries = [] → s.issuer.pool.gets = s.issuer.pool.puts) := by
  have books : Rates.each.total s 0 = 0 := run.total_eq_zero few used (.inr ⟨rfl, careful⟩)
  unfold Rates.total Rates.packets at books
  rw [Rates.hands_each, Rates.seats_each, Rates.story_each, show Rates.each.packet = 1 from rfl] at books
  have balance : s.issuer.pool.gets =
      s.issuer.pool.puts + (pledges s.table.entries).length + s.waits.length + s.mail.length := by omega
  refine ⟨balance, fun calls waits pledges => ?_⟩
  rw [balance, waits, pledges, run.attended.mail_eq_nil calls waits]
  rfl

/-! ### A run with all that can hold a packet -/

/-- No call was given up, and no request failed to be written. -/
def smooth (J : List Entry) : Bool :=
  J.all fun e => match e with
    | .cancelled _ | .unsent _ _ => false
    | _ => true

theorem careful_of_smooth {J : List Entry} (h : smooth J = true) : Careful J where
  kept {t} mem := by
    have := List.all_eq_true.mp h _ mem
    simp at this
  order later t fault earlier p heq := by
    have := List.all_eq_true.mp h (.unsent t fault) (heq ▸ List.mem_append_right later List.mem_cons_self)
    simp at this

/-- Callbacks and a wait are pending, and a call has not collected its reply. -/
def busy : Engine :=
  actAll numeric 2
    [.callAsync { route := .id 7, body := .ok [1] } [],
      .callAsync { route := .id 7, body := .ok [2], timeout := some ⟨5⟩ } [],
      .startCall { route := .id 7, body := .ok [3] }, .pollCall 0 2, .receive (shortReply 3 33 33)] {}

/-- After that the call collects its reply, and closing ends the others. -/
def idle : Engine := actAll numeric 2 [.pollCall 1 2, .close, .pollWait 1 1] busy

theorem reachable_busy : Reachable numeric false busy :=
  (Reachable.start {} {} {} true fun _ => rfl).actAll 2 _

theorem reachable_idle : Reachable numeric false idle := reachable_busy.actAll 2 _

theorem busy_packets_balance :
    busy.issuer.pool.gets = busy.issuer.pool.puts + 3 ∧ idle.issuer.pool.gets = idle.issuer.pool.puts := by
  have callbacks : (pledges busy.table.entries).length = 1 := by decide +kernel
  have waits : busy.waits.length = 1 := by decide +kernel
  have mail : busy.mail.length = 1 := by decide +kernel
  have while_busy := (packets_balance reachable_busy (by decide +kernel) (by decide)
    (careful_of_smooth (by decide +kernel))).1
  have when_idle := (packets_balance reachable_idle (by decide +kernel) (by decide)
    (careful_of_smooth (by decide +kernel))).2
  rw [callbacks, waits, mail] at while_busy
  exact ⟨while_busy, when_idle (List.length_eq_zero_iff.mp (by decide +kernel))
    (List.length_eq_zero_iff.mp (by decide +kernel)) (List.length_eq_zero_iff.mp (by decide +kernel))⟩

end Engine
end Switchboard
