import Switchboard.Text.Form

/-! The octets of form text. Each octet of a name or a value is written as itself, as `+`, or as `%` with its digits. In
    none of these is there a mark that parts names from values or pairs from each other, so a reader finds all that was
    written, and any texts at all come back. -/

namespace Switchboard
namespace Text

theorem bytes_ofList (cs : List Char) : bytes (String.ofList cs) = cs.flatMap String.utf8EncodeChar := by
  rw [bytes, String.toByteArray_ofList, List.utf8Encode, List.data_toByteArray]

namespace Form

/-! ### One octet -/

/-- What stands in form text for an octet. -/
inductive Written (b : UInt8) : Bytes → Prop where
  | itself (plain : b ∉ [0x25, 0x2B, 0x3D, 0x26]) : Written b [b]
  | space (is : b = 0x20) : Written b [0x2B]
  | digits {high low : UInt8} (is : b.toNat / 16 ∈ digitValue? high) (is' : b.toNat % 16 ∈ digitValue? low) :
      Written b [0x25, high, low]

/-- The octets that stand for themselves are ASCII, and none of those that stand for something else or part others. -/
theorem safe_is_plain : ∀ n < 256, isSafe (UInt8.ofNat n) →
    String.utf8EncodeChar (Char.ofNat n) = [UInt8.ofNat n] ∧ UInt8.ofNat n ∉ [(0x25 : UInt8), 0x2B, 0x3D, 0x26] := by
  decide +kernel

theorem digitValue?_digit : ∀ n < 16, (String.utf8EncodeChar (digit n)).map digitValue? = [some n] := by decide +kernel

/-- A digit is written as one octet, which is read as the digit. -/
theorem digit_octet {n : Nat} (h : n < 16) : ∃ d, String.utf8EncodeChar (digit n) = [d] ∧ n ∈ digitValue? d :=
  List.map_eq_singleton_iff.mp (digitValue?_digit n h)

theorem written_escape (b : UInt8) : Written b ((escape b).flatMap String.utf8EncodeChar) := by
  have hb : b.toNat < 256 := b.toNat_lt
  unfold escape
  split
  · rename_i safe
    obtain ⟨one, plain⟩ := safe_is_plain b.toNat hb (by simpa using safe)
    rw [List.flatMap_singleton, one]
    simpa using Written.itself (by simpa using plain)
  · split
    · rename_i space
      exact .space (beq_iff_eq.mp space)
    · obtain ⟨high, highOctet, isHigh⟩ := digit_octet (n := b.toNat / 16) (by omega)
      obtain ⟨low, lowOctet, isLow⟩ := digit_octet (n := b.toNat % 16) (by omega)
      simp only [List.flatMap_cons, List.flatMap_nil, highOctet, lowOctet]
      exact .digits isHigh isLow

variable {b : UInt8} {octets : Bytes}

theorem Written.unescape_go (written : Written b octets) (rest out : Bytes) :
    unescape.go (octets ++ rest) out = unescape.go rest (b :: out) := by
  cases written with
  | itself plain =>
    simp only [List.mem_cons, List.not_mem_nil, or_false, not_or] at plain
    obtain ⟨noPercent, noPlus, -⟩ := plain
    rw [List.singleton_append, unescape.go.eq_3 _ _ _ fun _ _ _ percent => absurd percent noPercent,
      if_neg (by simpa using noPlus)]
  | space is =>
    subst is
    rfl
  | @digits high low is is' =>
    rw [List.cons_append, List.cons_append, List.singleton_append, unescape.go, is, is']
    have value : b.toNat / 16 * 16 + b.toNat % 16 = b.toNat := by omega
    simp only [value, UInt8.ofNat_toNat]

/-- Neither `=` nor `&` is written for any octet. -/
theorem Written.unmarked (written : Written b octets) : 0x3D ∉ octets ∧ 0x26 ∉ octets := by
  cases written with
  | itself plain =>
    simp only [List.mem_cons, List.not_mem_nil, or_false, not_or] at plain
    exact ⟨by simpa using Ne.symm plain.2.2.1, by simpa using Ne.symm plain.2.2.2⟩
  | space is => decide
  | @digits high low is is' =>
    have noDigit {n : Nat} {d : UInt8} (is : n ∈ digitValue? d) : 0x3D ≠ d ∧ 0x26 ≠ d := by
      constructor <;> rintro rfl <;> cases is
    simp [noDigit is, noDigit is']

/-! ### A name or a value -/

def componentOctets (s : String) : Bytes := (component s).flatMap String.utf8EncodeChar

theorem componentOctets_eq (s : String) :
    componentOctets s = (bytes s).flatMap fun b => (escape b).flatMap String.utf8EncodeChar :=
  List.flatMap_assoc

theorem unescape_go_escaped (bs out : Bytes) :
    unescape.go (bs.flatMap fun b => (escape b).flatMap String.utf8EncodeChar) out = out.reverse ++ bs := by
  induction bs generalizing out with
  | nil => simp [unescape.go]
  | cons b bs ih =>
    rw [List.flatMap_cons, (written_escape b).unescape_go, ih, List.reverse_cons, List.append_assoc]
    rfl

theorem unescape_componentOctets (s : String) : unescape (componentOctets s) = bytes s := by
  rw [unescape, componentOctets_eq, unescape_go_escaped]
  rfl

theorem componentOctets_unmarked (s : String) : 0x3D ∉ componentOctets s ∧ 0x26 ∉ componentOctets s := by
  rw [componentOctets_eq]
  constructor <;> intro mem <;> obtain ⟨b, -, mem⟩ := List.mem_flatMap.mp mem
  · exact (written_escape b).unmarked.1 mem
  · exact (written_escape b).unmarked.2 mem

/-! ### Pairs -/

def pairOctets (p : String × String) : Bytes := componentOctets p.1 ++ 0x3D :: componentOctets p.2

theorem flatMap_intercalate {α β : Type} (f : α → List β) (sep : List α) : ∀ xs : List (List α),
    (sep.intercalate xs).flatMap f = (sep.flatMap f).intercalate (xs.map (List.flatMap f))
  | [] => rfl
  | [x] => by simp
  | x :: y :: xs => by
    have ih := flatMap_intercalate f sep (y :: xs)
    simp only [List.map_cons, List.intercalate_cons_cons, List.flatMap_append] at ih ⊢
    rw [ih]

theorem bytes_encode (pairs : List (String × String)) :
    bytes (encode pairs) = [0x26].intercalate (pairs.map pairOctets) := by
  rw [encode, bytes_ofList, flatMap_intercalate, List.map_map]
  refine congrArg _ (List.map_congr_left fun p _ => ?_)
  change (component p.1 ++ '=' :: component p.2).flatMap String.utf8EncodeChar = pairOctets p
  rw [List.flatMap_append, List.flatMap_cons]
  rfl

/-- A written pair is read as the pair: its name holds no `=`. -/
theorem pair_pairOctets (p : String × String) : pair (pairOctets p) = p := by
  have inName : ∀ b ∈ componentOctets p.1, (b != 0x3D) = true := by
    intro b mem
    exact bne_iff_ne.mpr fun is => (componentOctets_unmarked p.1).1 (is ▸ mem)
  rw [pair, pairOctets, List.takeWhile_append_of_pos inName, List.dropWhile_append_of_pos inName]
  simp [unescape_componentOctets]

theorem pairOctets_unmarked (p : String × String) : 0x26 ∉ pairOctets p := by
  simp [pairOctets, (componentOctets_unmarked p.1).2, (componentOctets_unmarked p.2).2]

theorem parts_go_eq (bs part : Bytes) (done : List Bytes) :
    parts.go bs part done = done.reverse ++ List.splitOnPPrepend (· == 0x26) bs part := by
  induction bs generalizing part done with
  | nil => simp [parts.go, List.splitOnPPrepend]
  | cons b bs ih =>
    unfold parts.go List.splitOnPPrepend
    split <;> simp [ih]

theorem parts_eq_splitOn (bs : Bytes) : parts bs = bs.splitOn 0x26 := parts_go_eq bs [] []

/-- Any pairs of texts come back from form text, in their order. -/
theorem decode_encode (pairs : List (String × String)) : decode (encode pairs) = pairs := by
  rw [decode, bytes_encode, parts_eq_splitOn]
  cases pairs with
  | nil => rfl
  | cons p pairs =>
    have unmarked : ∀ part ∈ (p :: pairs).map pairOctets, 0x26 ∉ part :=
      List.forall_mem_map.mpr fun q _ => pairOctets_unmarked q
    have begun : ∀ part ∈ (p :: pairs).map pairOctets, (!part.isEmpty) = true :=
      List.forall_mem_map.mpr fun q _ => by simp [pairOctets]
    rw [List.splitOn_intercalate 0x26 unmarked (List.cons_ne_nil _ _), List.filter_eq_self.mpr begun, List.map_map]
    exact List.map_id'' pair_pairOctets _

end Form
end Text
end Switchboard
