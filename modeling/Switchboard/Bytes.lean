/-! Octet strings, and whole numbers written in them most significant octet first. `bigEndian` and
    `toNat` undo each other on strings of one width, and `cut` splits off an exact count of octets or
    says that there are too few. -/

namespace Switchboard

abbrev Bytes := List UInt8

namespace Bytes

/-- How many numbers `width` octets can tell apart. -/
def span : Nat → Nat
  | 0 => 1
  | width + 1 => span width * 256

/-- The lowest `width` base-256 digits of `n`, most significant first. -/
def bigEndian : Nat → Nat → Bytes
  | 0, _ => []
  | width + 1, n => UInt8.ofNat (n / span width) :: bigEndian width n

/-- The number whose base-256 digits are `bs`, most significant first. -/
def toNat (bs : Bytes) : Nat := bs.foldl (fun n b => n * 256 + b.toNat) 0

/-- The first `n` octets and what follows them, if there are `n`. -/
def cut (n : Nat) (bs : Bytes) : Option (Bytes × Bytes) :=
  if (bs.take n).length = n then some (bs.take n, bs.drop n) else none

/-- The number in the first `width` octets, and what follows them. -/
def number (width : Nat) (bs : Bytes) : Option (Nat × Bytes) :=
  (cut width bs).map fun (head, rest) => (toNat head, rest)

/-! ### Splitting -/

theorem cut_eq_some_iff {n : Nat} {bs head rest : Bytes} :
    cut n bs = some (head, rest) ↔ bs = head ++ rest ∧ head.length = n := by
  unfold cut
  constructor
  · intro h
    split at h
    · rename_i hlen
      simp only [Option.some.injEq, Prod.mk.injEq] at h
      obtain ⟨rfl, rfl⟩ := h
      exact ⟨(List.take_append_drop n bs).symm, hlen⟩
    · cases h
  · rintro ⟨rfl, rfl⟩
    simp

theorem cut_eq_none_iff {n : Nat} {bs : Bytes} : cut n bs = none ↔ bs.length < n := by
  unfold cut
  simp only [List.length_take]
  split <;> rename_i h
  · simp only [reduceCtorEq, false_iff]; omega
  · simp only [true_iff]; omega

@[simp] theorem cut_append (a b : Bytes) : cut a.length (a ++ b) = some (a, b) :=
  cut_eq_some_iff.mpr ⟨rfl, rfl⟩

theorem length_of_number {width : Nat} {bs rest : Bytes} {n : Nat}
    (h : number width bs = some (n, rest)) : bs.length = width + rest.length := by
  simp only [number, Option.map_eq_some_iff, Prod.mk.injEq, Prod.exists] at h
  obtain ⟨head, tail, hcut, -, rfl⟩ := h
  obtain ⟨rfl, rfl⟩ := cut_eq_some_iff.mp hcut
  simp

/-! ### Digits -/

@[simp] theorem length_bigEndian (width n : Nat) : (bigEndian width n).length = width := by
  induction width with
  | zero => rfl
  | succ width ih => simp [bigEndian, ih]

theorem span_pos (width : Nat) : 0 < span width := by
  induction width with
  | zero => exact Nat.one_pos
  | succ width ih => exact Nat.mul_pos ih (by decide)

theorem foldl_digits (bs : Bytes) (start : Nat) :
    bs.foldl (fun n b => n * 256 + b.toNat) start = start * span bs.length + toNat bs := by
  induction bs generalizing start with
  | nil => simp [toNat, span]
  | cons b bs ih =>
    simp only [toNat, List.foldl_cons, ih (start * 256 + b.toNat), ih (0 * 256 + b.toNat),
      List.length_cons, span]
    grind

theorem toNat_cons (b : UInt8) (bs : Bytes) :
    toNat (b :: bs) = b.toNat * span bs.length + toNat bs := by
  have := foldl_digits bs (0 * 256 + b.toNat)
  simpa [toNat] using this

theorem toNat_lt (bs : Bytes) : toNat bs < span bs.length := by
  induction bs with
  | nil => simp [toNat, span]
  | cons b bs ih =>
    rw [toNat_cons, List.length_cons, span]
    have hb : b.toNat < 256 := b.toNat_lt
    calc b.toNat * span bs.length + toNat bs
        < b.toNat * span bs.length + span bs.length := by omega
      _ = (b.toNat + 1) * span bs.length := by grind
      _ ≤ 256 * span bs.length := Nat.mul_le_mul_right _ hb
      _ = span bs.length * 256 := Nat.mul_comm _ _

theorem toNat_bigEndian (width n : Nat) : toNat (bigEndian width n) = n % span width := by
  induction width with
  | zero => simp [bigEndian, toNat, span, Nat.mod_one]
  | succ width ih =>
    rw [bigEndian, toNat_cons, ih, length_bigEndian, UInt8.toNat_ofNat']
    rw [span, Nat.mod_mul (x := n) (a := span width) (b := 256),
      Nat.mul_comm (span width), Nat.add_comm]

theorem bigEndian_toNat (bs : Bytes) : bigEndian bs.length (toNat bs) = bs := by
  suffices h : ∀ (bs : Bytes) (high : Nat),
      bigEndian bs.length (high * span bs.length + toNat bs) = bs by
    simpa using h bs 0
  intro bs
  induction bs with
  | nil => intro _; rfl
  | cons b bs ih =>
    intro high
    have hpos := span_pos bs.length
    have hlt := toNat_lt bs
    have hsum : high * span (b :: bs).length + toNat (b :: bs) =
        (high * 256 + b.toNat) * span bs.length + toNat bs := by
      rw [toNat_cons, List.length_cons, span]; grind
    rw [hsum, List.length_cons, bigEndian, ih]
    have hdiv : ((high * 256 + b.toNat) * span bs.length + toNat bs) / span bs.length =
        high * 256 + b.toNat := by
      rw [Nat.add_comm, Nat.add_mul_div_right _ _ hpos, Nat.div_eq_of_lt hlt, Nat.zero_add]
    rw [hdiv]
    congr 1
    apply UInt8.toNat_inj.mp
    rw [UInt8.toNat_ofNat']
    have hb : b.toNat < 256 := b.toNat_lt
    omega

theorem number_eq_some_iff {width n : Nat} {bs rest : Bytes} :
    number width bs = some (n, rest) ↔ n < span width ∧ bs = bigEndian width n ++ rest := by
  simp only [number, Option.map_eq_some_iff, Prod.mk.injEq, Prod.exists, cut_eq_some_iff]
  constructor
  · rintro ⟨head, tail, ⟨rfl, hlen⟩, rfl, rfl⟩
    refine ⟨hlen ▸ toNat_lt head, ?_⟩
    rw [← hlen, bigEndian_toNat]
  · rintro ⟨hlt, rfl⟩
    refine ⟨bigEndian width n, rest, ⟨rfl, length_bigEndian width n⟩, ?_, rfl⟩
    rw [toNat_bigEndian, Nat.mod_eq_of_lt hlt]

end Bytes
end Switchboard
