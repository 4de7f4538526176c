import Switchboard.Frame.Stream
import Switchboard.Proofs.FrameRoundTrip

/-! Frames sent one after the other over a stream. However their octets are split on the way, reading so many of them
    takes the same octets off the front (`Arrives.readExact`); a frame states its own length, so each reading takes one
    frame off (`Arrives.readFrame`), and the stream gives the frames in order, up to its end between two of them. -/

namespace Switchboard
namespace Stream

variable {n limit : Nat} {bs frame tail : Bytes} {parts frames : List Bytes}

/-! ### Octets in parts -/

/-- Octets arrive in some parts, none of which is empty. -/
structure Arrives (bs : Bytes) (parts : List Bytes) : Prop where
  flatten_eq : parts.flatten = bs
  nonempty : ∀ part ∈ parts, part ≠ []

theorem readExact_zero (stream : List Arrival) : readExact 0 stream = .ok ([], stream) := by
  unfold readExact
  split <;> exact if_pos rfl

theorem Arrives.cons {part : Bytes} (nonempty : part ≠ []) (arrives : Arrives bs parts) :
    Arrives (part ++ bs) (part :: parts) :=
  ⟨congrArg (part ++ ·) arrives.flatten_eq, List.forall_mem_cons.mpr ⟨nonempty, arrives.nonempty⟩⟩

/-- So many octets are read off the front of a stream that has as many, whatever the parts. -/
theorem Arrives.readExact (arrives : Arrives bs parts) (enough : n ≤ bs.length) :
    ∃ rest, readExact n (parts.map .octets) = .ok (bs.take n, rest.map .octets) ∧ Arrives (bs.drop n) rest := by
  obtain ⟨rfl, nonempty⟩ := arrives
  induction parts generalizing n with
  | nil =>
    obtain rfl : n = 0 := Nat.le_zero.mp enough
    exact ⟨[], readExact_zero _, rfl, nonempty⟩
  | cons part parts ih =>
    obtain ⟨hpart, hparts⟩ := List.forall_mem_cons.mp nonempty
    by_cases zero : n = 0
    · subst zero
      exact ⟨part :: parts, readExact_zero _, rfl, nonempty⟩
    have full : part.isEmpty = false := List.isEmpty_eq_false_iff.mpr hpart
    unfold Stream.readExact
    simp only [List.map_cons, if_neg zero, full, Bool.false_eq_true, if_false, List.flatten_cons]
    by_cases short : n < part.length
    · -- The part is split, and what is left of it is not empty.
      have left : part.drop n ≠ [] := fun h => Nat.not_le.mpr short (List.drop_eq_nil_iff.mp h)
      refine ⟨part.drop n :: parts, ?_, ?_⟩
      · rw [if_pos short, List.take_append_of_le_length (Nat.le_of_lt short)]
        rfl
      · rw [List.drop_append_of_le_length (Nat.le_of_lt short)]
        exact .cons left ⟨rfl, hparts⟩
    · have long := Nat.le_of_not_lt short
      rw [List.flatten_cons, List.length_append] at enough
      obtain ⟨rest, read, arrives⟩ := ih hparts (Nat.sub_le_iff_le_add'.mpr enough)
      refine ⟨rest, ?_, ?_⟩
      · rw [if_neg short, read, List.take_append, List.take_of_length_le long]
        rfl
      · rw [List.drop_append, List.drop_of_length_le long]
        exact arrives

theorem Arrives.readFront {front : Bytes} (arrives : Arrives (front ++ tail) parts) :
    ∃ rest, Stream.readExact front.length (parts.map .octets) = .ok (front, rest.map .octets) ∧ Arrives tail rest := by
  obtain ⟨rest, read, arrives⟩ := arrives.readExact (n := front.length) (List.length_append ▸ Nat.le_add_right ..)
  rw [List.take_left] at read
  rw [List.drop_left] at arrives
  exact ⟨rest, read, arrives⟩

theorem Arrives.eq_nil (arrives : Arrives [] parts) : parts = [] := by
  cases parts with
  | nil => rfl
  | cons part parts =>
    exact absurd (List.append_eq_nil_iff.mp arrives.flatten_eq).1 (arrives.nonempty part List.mem_cons_self)

/-! ### Frames -/

/-- A frame states its own length, which covers the statement and is within the limit. -/
structure Framed (limit : Nat) (frame : Bytes) : Prop where
  stated : Bytes.toNat (frame.take Layout.prefixLength) = frame.length
  whole : Layout.prefixLength ≤ frame.length
  bound : frame.length ≤ limit

/-- One frame is read off the front of a stream. -/
theorem Arrives.readFrame (framed : Framed limit frame) (arrives : Arrives (frame ++ tail) parts) :
    ∃ rest, readFrame limit (parts.map .octets) = .ok (some (frame, rest.map .octets)) ∧ Arrives tail rest := by
  obtain ⟨stated, whole, bound⟩ := framed
  have head : (frame.take Layout.prefixLength).length = Layout.prefixLength := List.length_take_of_le whole
  have body : (frame.drop Layout.prefixLength).length = frame.length - Layout.prefixLength := List.length_drop
  rw [← List.take_append_drop Layout.prefixLength frame, List.append_assoc] at arrives
  obtain ⟨_, readHead, arrives⟩ := arrives.readFront
  obtain ⟨rest, readBody, arrives⟩ := arrives.readFront
  rw [head] at readHead
  rw [body] at readBody
  refine ⟨rest, ?_, arrives⟩
  unfold Stream.readFrame
  rw [readHead]
  simp only [stated, if_neg (Nat.not_lt.mpr whole), if_neg (Nat.not_lt.mpr bound), readBody]
  exact congrArg (fun octets => Except.ok (some (octets, rest.map Arrival.octets)))
    (List.take_append_drop Layout.prefixLength frame)

theorem readFrames_cons {stream rest : List Arrival} (read : readFrame limit stream = .ok (some (frame, rest))) :
    readFrames limit stream = (frame :: (readFrames limit rest).1, (readFrames limit rest).2) := by
  rw [readFrames]
  split <;> rename_i found
  · rw [read] at found
    cases found
  · rw [read] at found
    cases found
  · rw [read] at found
    cases found
    rfl

/-- The frames are read one after the other up to the end of the stream. -/
theorem Arrives.readFrames (framed : ∀ frame ∈ frames, Framed limit frame) (arrives : Arrives frames.flatten parts) :
    readFrames limit (parts.map .octets) = (frames, .ok ()) := by
  induction frames generalizing parts with
  | nil =>
    obtain rfl := arrives.eq_nil
    unfold Stream.readFrames
    rfl
  | cons frame frames ih =>
    obtain ⟨first, others⟩ := List.forall_mem_cons.mp framed
    obtain ⟨rest, read, arrives⟩ := arrives.readFrame first
    rw [readFrames_cons read, ih others arrives]

end Stream

namespace Parcel

variable {f : Framing} {p : Parcel} {frame : Bytes} {sent : List Parcel} {frames parts : List Bytes}

theorem framed_of_frame (h : (p.frame f).2 = .ok frame) : Stream.Framed f.limit frame := by
  obtain ⟨length, stated⟩ := length_of_frame h
  have size : f.layout.frameLength p.toPacket ≤ min f.limit 0xFFFFFFFF := (met_of_frame h).1 .size
  have whole : Layout.prefixLength ≤ f.layout.frameLength p.toPacket := by
    have header : Layout.prefixLength ≤ f.layout.headerLength := by cases f.layout <;> decide
    unfold Layout.frameLength
    omega
  exact ⟨stated, length ▸ whole, length ▸ Nat.le_trans size (Nat.min_le_left ..)⟩

theorem unframe_of_frames (written : sent.map (fun p => (p.frame f).2) = frames.map .ok) (q : Parcel) :
    frames.map (q.unframe f) =
      sent.map fun p => ({ toPacket := f.layout.borne p.toPacket, scratch := q.scratch }, .ok ()) := by
  induction sent generalizing frames with
  | nil =>
    obtain rfl := List.map_eq_nil_iff.mp written.symm
    rfl
  | cons p sent ih =>
    cases frames with
    | nil => cases written
    | cons frame frames =>
      obtain ⟨first, others⟩ := List.cons.inj written
      rw [List.map_cons, List.map_cons, unframe_of_frame first, ih others]

/-- Frames that were written for some packets are read off a stream as they are, however their octets are split on the
    way, and then the stream is at its end; each gives its packet, but for the routing key that the layout does not
    carry. -/
theorem streams_bear_their_frames (written : sent.map (fun p => (p.frame f).2) = frames.map .ok)
    (same : parts.flatten = frames.flatten) (nonempty : ∀ part ∈ parts, part ≠ []) :
    Stream.readFrames f.limit (parts.map .octets) = (frames, .ok ()) ∧
    ∀ q : Parcel, frames.map (q.unframe f) =
      sent.map fun p => ({ toPacket := f.layout.borne p.toPacket, scratch := q.scratch }, .ok ()) := by
  have framed : ∀ frame ∈ frames, Stream.Framed f.limit frame := fun frame mem => by
    have read : .ok frame ∈ frames.map (Except.ok (ε := Fault)) := List.mem_map_of_mem mem
    rw [← written] at read
    obtain ⟨p, -, h⟩ := List.mem_map.mp read
    exact framed_of_frame h
  have arrives : Stream.Arrives frames.flatten parts := ⟨same, nonempty⟩
  exact ⟨arrives.readFrames framed, unframe_of_frames written⟩

/-- Frames of at most 32 octets under a mask. -/
def curtained : Framing := { limit := 32, mask := .xor [0x55, 0xAA] (by decide) }

/-- Two packets, the second with a numeric key that its frame does not carry. -/
def two : List Parcel := [{ uri := "/a", session := 1, payload := [5, 6] }, { uri := "/", id := 7, session := 2 }]

def twoFrames : List Bytes :=
  [curtained.disguise [0, 0, 0, 24, 0, 0, 0, 2, 0, 0, 0, 0, 0, 0, 0, 1, 0, 0, 0, 2, 47, 97, 5, 6],
    curtained.disguise [0, 0, 0, 21, 0, 0, 0, 1, 0, 0, 0, 0, 0, 0, 0, 2, 0, 0, 0, 0, 47]]

/-- The frames split within the length of each. -/
def splinters : List Bytes :=
  [twoFrames.flatten.take 3, (twoFrames.flatten.drop 3).take 23, twoFrames.flatten.drop 26]

theorem splinters_bear_two_frames :
    Stream.readFrames 32 (splinters.map .octets) = (twoFrames, .ok ()) ∧
    ∀ q : Parcel, twoFrames.map (q.unframe curtained) =
      [({ uri := "/a", session := 1, payload := [5, 6], scratch := q.scratch }, .ok ()),
        ({ uri := "/", session := 2, scratch := q.scratch }, .ok ())] := by
  have written : two.map (fun p => (p.frame curtained).2) = twoFrames.map .ok :=
    List.cons_eq_cons.mpr ⟨eq_ok_of_toOption (by decide +kernel),
      List.cons_eq_cons.mpr ⟨eq_ok_of_toOption (by decide +kernel), rfl⟩⟩
  have same : splinters.flatten = twoFrames.flatten := by decide
  exact streams_bear_their_frames written same (by decide)

end Parcel
end Switchboard
