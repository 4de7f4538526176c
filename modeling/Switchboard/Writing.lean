import Switchboard.Bytes
import Switchboard.Fault

/-! Octets written piece by piece. A piece is octets to write or a reason to stop; what was written
    before the stop stays written. -/

namespace Switchboard

/-- One piece of an output: octets, or a reason to stop. -/
abbrev Piece := Except Fault Bytes

namespace Piece

/-- The pieces before the first stop, last first, and the reason for it. -/
def run : List Bytes → List Piece → List Bytes × Except Fault Unit
  | done, [] => (done, .ok ())
  | done, .ok bs :: rest => run (bs :: done) rest
  | done, .error fault :: _ => (done, .error fault)

/-- What is written of some pieces, and whether all of them were. -/
def write (pieces : List Piece) : Bytes × Except Fault Unit :=
  let (done, result) := run [] pieces
  (done.reverse.flatten, result)

/-- All the octets of some pieces, or the reason to stop. -/
def all (pieces : List Piece) : Except Fault Bytes :=
  match write pieces with
  | (bs, .ok ()) => .ok bs
  | (_, .error fault) => .error fault

/-! ### What is written -/

theorem run_eq (done : List Bytes) (pieces : List Piece) :
    run done pieces = ((run [] pieces).1 ++ done, (run [] pieces).2) := by
  induction pieces generalizing done with
  | nil => rfl
  | cons piece rest ih =>
    cases piece with
    | error fault => rfl
    | ok bs =>
      unfold run
      rw [ih (bs :: done), ih [bs], List.append_assoc]
      rfl

theorem write_ok (bs : Bytes) (rest : List Piece) :
    write (.ok bs :: rest) = (bs ++ (write rest).1, (write rest).2) := by
  have h : run [] (.ok bs :: rest) = run [bs] rest := rfl
  unfold write
  rw [h, run_eq [bs]]
  simp

theorem write_append_of_ok {a : List Piece} {x : Bytes} (h : write a = (x, .ok ())) (b : List Piece) :
    write (a ++ b) = (x ++ (write b).1, (write b).2) := by
  induction a generalizing x with
  | nil =>
    cases h
    rfl
  | cons piece rest ih =>
    cases piece with
    | error fault => cases h
    | ok bs =>
      rw [write_ok] at h
      obtain ⟨rfl, hrest⟩ := Prod.mk.injEq .. ▸ h
      rw [List.cons_append, write_ok, ih (Prod.ext rfl hrest), List.append_assoc]

theorem write_append_of_error {a : List Piece} {fault : Fault} (h : (write a).2 = .error fault) (b : List Piece) :
    write (a ++ b) = write a := by
  induction a with
  | nil => cases h
  | cons piece rest ih =>
    cases piece with
    | error fault => rfl
    | ok bs =>
      rw [write_ok] at h
      rw [List.cons_append, write_ok, write_ok, ih h]

theorem all_eq (pieces : List Piece) : all pieces = (write pieces).2.map fun _ => (write pieces).1 := by
  unfold all
  rcases write pieces with ⟨bs, fault | _⟩ <;> rfl

end Piece
end Switchboard
