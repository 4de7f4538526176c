import Switchboard.Proofs.Wire.FrameTaking

/-! Which octets are read as a frame: those that meet every clause, and they are read as the packet that stands in
    them. Otherwise the first broken clause decides the fault, and the parcel is left as it was. -/

namespace Switchboard
namespace Layout

variable {l : Layout} {limit : Nat} {frame : Bytes} {p : Parcel}

/-- What comes of reading octets into a parcel. They are taken if they meet every clause, and the parcel holds the
    packet that they carry then, with the last values of each metadata key; otherwise the first broken clause decides
    the fault, and the parcel is as before. -/
structure Verdict (l : Layout) (limit : Nat) (frame : Bytes) (p : Parcel) (result : Except Fault Unit) (q : Parcel) :
    Prop where
  taken : result = .ok () ↔ ∀ c, Clause.Holds l limit frame c
  carries : result = .ok () → l.Carries frame q.toPacket ∧ q.scratch = p.scratch
  filed : result = .ok () → ∀ entries, Metadata.Spells entries (l.metadataPart frame) →
    ∀ key, q.metadata.get? key = Metadata.filed entries key
  refused : ∀ fault, result = .error fault → q = p ∧
    ∃ c, FirstBroken (Clause.Holds l limit frame) Clause.all c ∧ c.Refuses l limit frame fault ∧
      ∀ code, c.code = some code → fault.code = code

theorem verdict_of_holds {q : Packet} (holds : ∀ c, Clause.Holds l limit frame c) (carries : l.Carries frame q) :
    Verdict l limit frame p (.ok ()) { toPacket := q, scratch := p.scratch } where
  taken := ⟨fun _ => holds, fun _ => rfl⟩
  carries _ := ⟨carries, rfl⟩
  filed _ entries spells key := by
    obtain ⟨found, spells', metadata⟩ := carries.metadata
    rw [metadata, spells'.unique spells, Metadata.get?_ofEntries]
  refused _ h := nomatch h

theorem verdict_of_broken {c : Clause} {fault : Fault}
    (broken : FirstBroken (Clause.Holds l limit frame) Clause.all c) (refuses : c.Refuses l limit frame fault) :
    Verdict l limit frame p (.error fault) p where
  taken := ⟨nofun, fun holds => absurd (holds c) broken.not_holds⟩
  carries := nofun
  filed := nofun
  refused _ h := by
    cases h
    exact ⟨rfl, c, broken, refuses, fun _ => refuses.code⟩

theorem exists_verdict (l : Layout) (limit : Nat) (frame : Bytes) (p : Parcel) :
    ∃ result q, (Taking.fill l limit frame).run.run p = some (result, q) ∧
      (l.decode limit frame = result.map fun _ => q.toPacket) ∧ Verdict l limit frame p result q := by
  rcases decode_cases l limit frame with ⟨q, decoded, holds, carries⟩ | ⟨c, fault, broken, refused, refuses⟩
  · exact ⟨.ok (), { toPacket := q, scratch := p.scratch }, by rw [Taking.run_fill, decoded], decoded,
      verdict_of_holds holds carries⟩
  · exact ⟨.error fault, p, by rw [Taking.run_fill, refused], refused, verdict_of_broken broken refuses⟩

end Layout

namespace Parcel

/-- Reading octets into a parcel, plain or masked, always has an outcome: the octets are taken just when they meet
    every clause, and the packet is then the one that stands in them; otherwise the first broken clause decides the
    fault, and the parcel is what it was. -/
theorem frames_are_taken_or_refused (f : Framing) (p : Parcel) (frame : Bytes) :
    (∃ result q, (Taking.fill f.layout f.limit frame).run.run p = some (result, q) ∧
      (f.layout.decode f.limit frame = result.map fun _ => q.toPacket) ∧
      Layout.Verdict f.layout f.limit frame p result q) ∧
    (∃ result q, (Taking.unframe f frame).run.run p = some (result, q) ∧ p.unframe f frame = (q, result) ∧
      Layout.Verdict f.layout f.limit (f.disguise frame) p result q) := by
  refine ⟨Layout.exists_verdict .., ?_⟩
  obtain ⟨result, q, filled, -, verdict⟩ := Layout.exists_verdict f.layout f.limit (f.disguise frame) p
  have unframed : (Taking.unframe f frame).run.run p = some (result, q) := by
    rw [← filled]
    unfold Taking.unframe
    rw [Taking.unmask_eq, pure_bind]
  refine ⟨result, q, unframed, ?_, verdict⟩
  rw [Taking.run_unframe] at unframed
  cases unframed
  rfl

end Parcel
end Switchboard
