import Switchboard.Bytes
import Switchboard.Fault

/-! The obfuscation of frames: nothing, or the exclusive or with a key that repeats. Applying a mask
    twice gives back the octets. -/

namespace Switchboard

/-- How the octets after a frame's length are disguised. -/
inductive Mask where
  | none
  | xor (key : Bytes) (nonempty : key ≠ [])
  deriving DecidableEq

namespace Mask

instance : Inhabited Mask := ⟨.none⟩

/-- The mask with a given key, which must not be empty. -/
def ofKey (key : Bytes) : Except Fault Mask :=
  if h : key = [] then .error .keyEmpty else .ok (.xor key h)

/-- The octet of the repeated key at a position. -/
def keyAt (key : Bytes) (i : Nat) : UInt8 := key.getD (i % key.length) 0

/-- Disguises octets, or reveals disguised ones. -/
def apply (m : Mask) (bs : Bytes) : Bytes :=
  match m with
  | .none => bs
  | .xor key _ => bs.mapIdx fun i b => b ^^^ keyAt key i

def isNone : Mask → Bool
  | .none => true
  | .xor _ _ => false

@[simp] theorem length_apply (m : Mask) (bs : Bytes) : (m.apply bs).length = bs.length := by
  cases m <;> simp [apply]

@[simp] theorem apply_apply (m : Mask) (bs : Bytes) : m.apply (m.apply bs) = bs := by
  cases m with
  | none => rfl
  | xor key h =>
    apply List.ext_getElem
    · simp [apply]
    · intro i _ _
      simp only [apply, List.getElem_mapIdx, UInt8.xor_assoc, UInt8.xor_self, UInt8.xor_zero]

end Mask
end Switchboard
