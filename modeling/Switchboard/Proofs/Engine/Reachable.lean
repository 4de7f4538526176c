import Switchboard.Proofs.Engine.Attended
import Switchboard.Proofs.Engine.Ledger
import Switchboard.Proofs.Engine.Polling
import Switchboard.Proofs.Engine.Removals

/-! The states that a connection can come to. Between two things done with it nothing is in hand. -/

namespace Switchboard
namespace Engine

/-- The states of a connection: it starts without calls, anything may be done with it in any order, and
    what is around it may change. Where its packets and numbers are shared, others use them too. -/
inductive Reachable (setup : Setup) (shared : Bool) : Engine → Prop where
  | start (issuer : Issuer) (contexts : ContextPool) (line : Line) (hosted : Bool)
      (whole : shared = false → issuer.pool.gets = issuer.pool.puts) :
      Reachable setup shared { issuer, contexts, line, hosted }
  | act {s t : Engine} {o : Outcome} (before : Reachable setup shared s) (depth : Nat) (a : Act)
      (done : act setup depth a s = .ok (o, t)) : Reachable setup shared t
  | around {s : Engine} (before : Reachable setup shared s) (line : Line) (hosted : Bool) :
      Reachable setup shared { s with line, hosted }
  | others {s : Engine} (before : Reachable setup shared s) (issuer : Issuer) (contexts : ContextPool)
      (common : shared = true) (drawn : s.issuer.drawn ≤ issuer.drawn) :
      Reachable setup shared { s with issuer, contexts }

/-- Does one thing after the other, as far as they come to an end. -/
def actAll (setup : Setup) (depth : Nat) : List Act → Engine → Engine
  | [], s => s
  | a :: rest, s =>
    match act setup depth a s with
    | .ok (_, t) => actAll setup depth rest t
    | .error _ => s

variable {setup : Setup} {shared : Bool} {s : Engine} {w : Rates}

theorem Reachable.actAll (run : Reachable setup shared s) (depth : Nat) (as : List Act) :
    Reachable setup shared (actAll setup depth as s) := by
  induction as generalizing s with
  | nil => exact run
  | cons a rest ih =>
    unfold Engine.actAll
    cases h : Engine.act setup depth a s with
    | error halt => exact run
    | ok x => exact ih (run.act depth a h)

theorem inv_start (issuer : Issuer) (contexts : ContextPool) (line : Line) (hosted : Bool) :
    Inv setup { issuer, contexts, line, hosted } 0 where
  keyed := List.nodup_nil
  shut h := by cases h
  sound t := ⟨rfl, rfl⟩
  tally t := Nat.zero_le _
  fresh t _ := rfl
  fits k hk := absurd hk (Multiset.notMem_zero k)
  coherent := trivial

theorem Moves.justified {t : Engine} {H K : Hands} (m : Moves setup s H t K) (inv : Inv setup s H)
    (numbered : Numbered s) (few : t.issuer.drawn ≤ numbers) (h : Justified s.journal) : Justified t.journal := by
  induction m with
  | refl => exact h
  | tail F before last ih =>
    have few := last.drawn.trans few
    exact last.justified (before.inv inv) (before.numbered inv numbered few) (ih few)

namespace Reachable

theorem inv (run : Reachable setup shared s) : Inv setup s 0 := by
  induction run with
  | start issuer contexts line hosted => exact inv_start issuer contexts line hosted
  | act _ depth a done ih => exact (act_moves done 0).inv ih
  | around _ line hosted ih => exact ih.recount rfl rfl rfl rfl rfl
  | others _ issuer contexts _ _ ih => exact ih.recount rfl rfl rfl rfl rfl

theorem attended (run : Reachable setup shared s) : Attended s 0 := by
  induction run with
  | start => exact ⟨(fun h => nomatch h), (fun h => nomatch h)⟩
  | act before depth a done ih => exact (act_moves done 0).attended before.inv ih
  | around _ line hosted ih => exact ⟨ih.mail, ih.sessions⟩
  | others _ issuer contexts _ _ ih => exact ⟨ih.mail, ih.sessions⟩

theorem numbered (run : Reachable setup shared s) (few : s.issuer.drawn ≤ numbers) : Numbered s := by
  induction run with
  | start => exact ⟨(fun h => nomatch h), (fun h => nomatch h)⟩
  | act before depth a done ih =>
    have m := act_moves done 0
    exact m.numbered before.inv (ih (m.drawn.trans few)) few
  | around _ line hosted ih => exact ⟨(ih few).issued, (ih few).distinct⟩
  | others _ issuer contexts _ drawn ih =>
    have ih := ih (drawn.trans few)
    refine ⟨fun h => ?_, ih.distinct⟩
    obtain ⟨k, hk, hk', number⟩ := ih.issued h
    exact ⟨k, hk, hk'.trans drawn, number⟩

theorem justified (run : Reachable setup shared s) (few : s.issuer.drawn ≤ numbers) : Justified s.journal := by
  induction run with
  | start => trivial
  | act before depth a done ih =>
    have m := act_moves done 0
    have few' := m.drawn.trans few
    exact m.justified before.inv (before.numbered few') few (ih few')
  | around _ line hosted ih => exact ih few
  | others _ issuer contexts _ drawn ih => exact ih (drawn.trans few)

/-- The books of a connection are balanced. -/
theorem books_eq_zero (run : Reachable setup shared s) (few : s.issuer.drawn ≤ numbers)
    (spared : w.Spared setup) (packets : w.packet = 0 ∨ shared = false) : w.books s 0 = 0 := by
  induction run with
  | start issuer contexts line hosted whole =>
    -- A pool that nobody shares begins whole, and where it is shared packets are worth nothing.
    have none : w.packets [] issuer.pool = 0 := by
      unfold Rates.packets
      rcases packets with h | h
      · simp [h]
      · simp [whole h]
    unfold Rates.books Rates.total
    rw [none]
    exact (Int.zero_add _).trans (Int.mul_zero _)
  | act before depth a done ih =>
    have m := act_moves done 0
    have few' := m.drawn.trans few
    exact (m.books before.inv (before.numbered few') few spared).trans (ih few')
  | around _ line hosted ih => exact ih few
  | @others s _ issuer contexts common drawn ih =>
    -- What others took from a shared pool cannot be told apart, so only calls are counted there.
    obtain packet : w.packet = 0 := packets.resolve_right fun alone => by
      rw [alone] at common
      cases common
    have books := ih (drawn.trans few)
    unfold Rates.books Rates.total Rates.packets at books ⊢
    simp only [packet, Int.zero_mul] at books ⊢
    exact books

theorem total_eq_zero (run : Reachable setup shared s) (few : s.issuer.drawn ≤ numbers)
    (used : setup.spawner ≠ .drop) (packets : w.packet = 0 ∨ shared = false ∧ Careful s.journal) :
    w.total s 0 = 0 := by
  have books : w.total s 0 + w.packet * forfeits s.journal = 0 :=
    run.books_eq_zero few (Rates.spared_of_used used) (packets.imp_right And.left)
  have lost : w.packet * forfeits s.journal = 0 := by
    rcases packets with packet | ⟨-, careful⟩
    · rw [packet, Int.zero_mul]
    · rw [careful.forfeits_eq_zero]
      exact Int.mul_zero _
  omega

end Reachable
end Engine
end Switchboard
