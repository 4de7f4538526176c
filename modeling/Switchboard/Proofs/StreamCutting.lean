import Switchboard.Proofs.MetadataGrammar
import Switchboard.Proofs.StreamFraming

/-! Any octets on a stream, whole frames or not. What is read depends on the octets alone and not on the parts in which
    they arrive: frames are cut off the front as long as the octets that are left begin with one, and what is left then
    says how the reading ends (`Ending`). -/

namespace Switchboard
namespace Stream

variable {n limit : Nat} {bs frame tail : Bytes} {parts frames : List Bytes} {ending : Except StreamFault Unit}

/-- How the reading of a stream ends when what is left of it does not begin with a frame. The length that a frame would
    have is looked at before the rest of it. -/
inductive Ending (limit : Nat) (bs : Bytes) : Except StreamFault Unit → Prop where
  | finished (few : bs.length < 4) : Ending limit bs (.ok ())
  | short (some : 4 ≤ bs.length) (less : Bytes.toNat (bs.take 4) < 4) :
    Ending limit bs (.error (.tooShort (Bytes.toNat (bs.take 4))))
  | long (some : 4 ≤ bs.length) (whole : 4 ≤ Bytes.toNat (bs.take 4)) (more : limit < Bytes.toNat (bs.take 4)) :
    Ending limit bs (.error (.tooLong (Bytes.toNat (bs.take 4)) limit))
  | early (some : 4 ≤ bs.length) (whole : 4 ≤ Bytes.toNat (bs.take 4)) (bound : Bytes.toNat (bs.take 4) ≤ limit)
    (cut : bs.length < Bytes.toNat (bs.take 4)) : Ending limit bs (.error .early)

/-- Octets are frames one after the other, and what is left of them ends the reading. -/
structure Cut (limit : Nat) (bs : Bytes) (frames : List Bytes) (ending : Except StreamFault Unit) : Prop where
  slices : ∃ rest, bs = frames.flatten ++ rest ∧ Ending limit rest ending
  framed : ∀ frame ∈ frames, Framed limit frame

/-- A stream begins with a frame, or it ends. -/
theorem frame_or_ending (limit : Nat) (bs : Bytes) :
    (∃ ending, Ending limit bs ending) ∨ ∃ frame rest, Framed limit frame ∧ bs = frame ++ rest := by
  rcases Nat.lt_or_ge bs.length 4 with few | some
  · exact .inl ⟨_, .finished few⟩
  rcases Nat.lt_or_ge (Bytes.toNat (bs.take 4)) 4 with less | whole
  · exact .inl ⟨_, .short some less⟩
  rcases Nat.lt_or_ge limit (Bytes.toNat (bs.take 4)) with more | bound
  · exact .inl ⟨_, .long some whole more⟩
  rcases Nat.lt_or_ge bs.length (Bytes.toNat (bs.take 4)) with cut | full
  · exact .inl ⟨_, .early some whole bound cut⟩
  refine .inr ⟨bs.take (Bytes.toNat (bs.take 4)), bs.drop (Bytes.toNat (bs.take 4)), ?_, (List.take_append_drop ..).symm⟩
  have length : (bs.take (Bytes.toNat (bs.take 4))).length = Bytes.toNat (bs.take 4) := List.length_take_of_le full
  exact {
    stated := by rw [length, List.take_take, Layout.prefixLength, Nat.min_eq_left whole]
    whole := by rwa [length]
    bound := by rwa [length] }

/-! ### Reading -/

/-- A stream with fewer octets ends before so many are read. -/
theorem Arrives.readExact_early (arrives : Arrives bs parts) (few : bs.length < n) :
    Stream.readExact n (parts.map .octets) = .error .early := by
  obtain ⟨rfl, nonempty⟩ := arrives
  have some : n ≠ 0 := Nat.ne_zero_of_lt few
  induction parts generalizing n with
  | nil => exact if_neg some
  | cons part parts ih =>
    obtain ⟨hpart, hparts⟩ := List.forall_mem_cons.mp nonempty
    have full : part.isEmpty = false := List.isEmpty_eq_false_iff.mpr hpart
    rw [List.flatten_cons, List.length_append] at few
    have past : ¬n < part.length := by omega
    unfold Stream.readExact
    simp only [List.map_cons, if_neg some, full, Bool.false_eq_true, if_false, if_neg past]
    rw [ih hparts (by omega) (by omega)]
    rfl

/-- What does not begin with a frame ends the reading. -/
theorem Ending.readFrame (ends : Ending limit bs ending) (arrives : Arrives bs parts) :
    Stream.readFrame limit (parts.map .octets) = ending.map fun _ => none := by
  unfold Stream.readFrame
  rw [Layout.prefixLength]
  rcases Nat.lt_or_ge bs.length 4 with few | some
  · rw [arrives.readExact_early few]
    cases ends with
    | finished => rfl
    | short some | long some | early some => omega
  obtain ⟨rest, read, arrives⟩ := arrives.readExact some
  rw [read]
  cases ends with
  | finished few => omega
  | short _ less => exact if_pos less
  | long _ whole more => simp only [if_neg (Nat.not_lt.mpr whole)]; exact if_pos more
  | early _ whole bound cut =>
    have left : (bs.drop 4).length < Bytes.toNat (bs.take 4) - 4 := by rw [List.length_drop]; omega
    simp only [if_neg (Nat.not_lt.mpr whole), if_neg (Nat.not_lt.mpr bound), arrives.readExact_early left]
    rfl

theorem Ending.readFrames (ends : Ending limit bs ending) (arrives : Arrives bs parts) :
    Stream.readFrames limit (parts.map .octets) = ([], ending) := by
  have read := ends.readFrame arrives
  unfold Stream.readFrames
  split <;> rename_i found <;> rw [read] at found <;> cases ends <;> cases found <;> rfl

theorem Cut.cons (framed : Framed limit frame) (cut : Cut limit tail frames ending) :
    Cut limit (frame ++ tail) (frame :: frames) ending where
  slices := by
    obtain ⟨rest, rfl, ends⟩ := cut.slices
    exact ⟨rest, (List.append_assoc ..).symm, ends⟩
  framed := List.forall_mem_cons.mpr ⟨framed, cut.framed⟩

theorem length_le_flatten (framed : ∀ frame ∈ frames, Framed limit frame) :
    4 * frames.length ≤ frames.flatten.length := by
  induction frames with
  | nil => exact Nat.zero_le _
  | cons frame frames ih =>
    obtain ⟨first, rest⟩ := List.forall_mem_cons.mp framed
    have whole : 4 ≤ frame.length := first.whole
    have := ih rest
    rw [List.flatten_cons, List.length_append, List.length_cons]
    omega

/-- There are at most a quarter as many frames as there are octets. -/
theorem Cut.length_le (cut : Cut limit bs frames ending) : 4 * frames.length ≤ bs.length := by
  obtain ⟨rest, rfl, -⟩ := cut.slices
  rw [List.length_append]
  exact Nat.le_add_right_of_le (length_le_flatten cut.framed)

/-- Octets are cut in one way, and so they are read in whatever parts they arrive. -/
theorem exists_cut (limit : Nat) (bs : Bytes) : ∃ frames ending, Cut limit bs frames ending ∧
    ∀ parts, Arrives bs parts → readFrames limit (parts.map .octets) = (frames, ending) := by
  -- On the number of octets that are left, as a frame has four at least.
  induction hn : bs.length using Nat.strongRecOn generalizing bs with
  | ind n ih =>
    rcases frame_or_ending limit bs with ⟨ending, ends⟩ | ⟨frame, rest, framed, rfl⟩
    · exact ⟨[], ending, ⟨⟨bs, rfl, ends⟩, nofun⟩, fun parts => ends.readFrames⟩
    · have shorter : rest.length < n := by
        have whole : 4 ≤ frame.length := framed.whole
        rw [← hn, List.length_append]
        omega
      obtain ⟨frames, ending, cut, reads⟩ := ih _ shorter rest rfl
      refine ⟨frame :: frames, ending, cut.cons framed, fun parts arrives => ?_⟩
      obtain ⟨left, read, arrives⟩ := arrives.readFrame framed
      rw [readFrames_cons read, reads left arrives]

end Stream

/-! ### What frames are refused for -/

/-- A frame is refused for its length: it is too long, or not as long as it says. -/
def Fault.OfLength : Fault → Prop
  | .packetTooLarge .. | .sizeMismatch .. => True
  | _ => False

namespace Layout

variable {l : Layout} {limit : Nat} {frame : Bytes} {fault : Fault}

theorem Clause.Refuses.not_ofLength {c : Clause} (refuses : c.Refuses l limit frame fault) (bound : c ≠ .bound)
    (length : c ≠ .length) : ¬fault.OfLength := by
  cases c with
  | bound => exact absurd rfl bound
  | length => exact absurd rfl length
  | metadata =>
    obtain ⟨flaw, -, rfl⟩ := Metadata.decode_eq_error_iff.mp refuses
    cases flaw <;> exact nofun
  | header | command | extent | key =>
    cases refuses
    exact nofun

end Layout

namespace Stream

variable {limit : Nat} {frame : Bytes} {fault : Fault}

theorem Framed.disguise (framed : Framed limit frame) (f : Framing) : Framed limit (f.disguise frame) where
  stated := by rw [Framing.take_disguise, Framing.length_disguise, framed.stated]
  whole := by rw [Framing.length_disguise]; exact framed.whole
  bound := by rw [Framing.length_disguise]; exact framed.bound

/-- Whoever has the same limit does not refuse a frame for its length. -/
theorem Framed.not_refused (f : Framing) (framed : Framed f.limit frame) (refused : f.decode frame = .error fault) :
    ¬fault.OfLength := by
  have framed := framed.disguise f
  -- The length was within the limit when it was read, and four octets can say it.
  have bound : Layout.Clause.bound.Holds f.layout f.limit (f.disguise frame) := by
    have stated := Bytes.toNat_lt ((f.disguise frame).take Layout.prefixLength)
    rw [List.length_take_of_le framed.whole, framed.stated] at stated
    exact Nat.le_min.mpr ⟨framed.bound, Nat.le_of_lt_succ stated⟩
  rcases Layout.decode_cases f.layout f.limit (f.disguise frame) with ⟨q, decoded, -⟩ | ⟨c, fault', broken, decoded, refuses⟩
  · cases refused.symm.trans decoded
  · cases refused.symm.trans decoded
    refine refuses.not_ofLength (fun same => ?_) (fun same => ?_)
    · exact broken.not_holds (same ▸ bound)
    · exact broken.not_holds (same ▸ framed.stated)

/-- However octets are split on their way, the reading gives the same frames and the same ending. The frames are cut off
    the front one after the other, each as long as it says, with its length in it, and within the limit; and the reading
    ends at the first octets that begin no such frame, for what they say. No reader with the same limit refuses one of
    the frames for being too long or not as long as it says. -/
theorem streams_are_cut_into_frames (limit : Nat) (bs : Bytes) : ∃ frames ending,
    (∀ parts, Arrives bs parts → readFrames limit (parts.map .octets) = (frames, ending)) ∧
    Cut limit bs frames ending ∧ 4 * frames.length ≤ bs.length ∧
    ∀ f : Framing, f.limit = limit → ∀ frame ∈ frames, ∀ fault, f.decode frame = .error fault → ¬fault.OfLength := by
  obtain ⟨frames, ending, cut, reads⟩ := exists_cut limit bs
  refine ⟨frames, ending, reads, cut, cut.length_le, ?_⟩
  rintro f rfl frame mem fault refused
  exact (cut.framed frame mem).not_refused f refused

end Stream
end Switchboard
