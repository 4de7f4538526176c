import Switchboard.Frame.Layout

/-! Frames out of a stream of octets that arrives in parts of any size. A frame is as many octets as its
    first four say; the stream may end between two frames. -/

namespace Switchboard

/-- What one read of a stream gives: some octets, where none mean the end, or a failure. -/
inductive Arrival where
  | octets (bs : Bytes)
  /-- The connection was found closed in the middle of something. -/
  | ended
  | reset (reason : String)
  deriving DecidableEq

/-- Why no further frame can be read. -/
inductive StreamFault where
  /-- The octets end inside a frame. -/
  | early
  | ended
  | reset (reason : String)
  | tooShort (length : Nat)
  | tooLong (length limit : Nat)
  deriving DecidableEq

def StreamFault.message : StreamFault → String
  | early => "tcp i/o failed: early eof"
  | ended => "tcp i/o failed: unexpected end of file"
  | reset reason => s!"tcp i/o failed: {reason}"
  | tooShort length => s!"frame length {length} is shorter than its own length prefix"
  | tooLong length limit => s!"frame of {length} bytes exceeds the {limit}-byte limit"

namespace Stream

def remaining : List Arrival → Nat
  | [] => 0
  | .octets bs :: rest => bs.length + remaining rest
  | _ :: rest => remaining rest

/-- Exactly `n` octets, over as many reads as it takes. -/
def readExact (n : Nat) : List Arrival → Except StreamFault (Bytes × List Arrival)
  | stream@([]) => if n = 0 then .ok ([], stream) else .error .early
  | stream@(.ended :: _) => if n = 0 then .ok ([], stream) else .error .ended
  | stream@(.reset reason :: _) => if n = 0 then .ok ([], stream) else .error (.reset reason)
  | stream@(.octets bs :: rest) =>
    if n = 0 then .ok ([], stream)
    else if bs.isEmpty then .error .early
    else if n < bs.length then .ok (bs.take n, .octets (bs.drop n) :: rest)
    else do
      let (more, rest) ← readExact (n - bs.length) rest
      return (bs ++ more, rest)

theorem remaining_of_readExact {n : Nat} {stream rest : List Arrival} {bs : Bytes}
    (h : readExact n stream = .ok (bs, rest)) : remaining stream = n + remaining rest := by
  induction stream generalizing n bs with
  | nil =>
    unfold readExact at h
    split at h
    · cases h; simp_all
    · cases h
  | cons a stream ih =>
    cases a with
    | ended | reset _ =>
      unfold readExact at h
      split at h
      · cases h; simp_all
      · cases h
    | octets part =>
      unfold readExact at h
      split at h
      · cases h; simp_all
      · split at h
        · cases h
        · split at h
          · cases h
            simp only [remaining, List.length_drop]
            omega
          · cases hmore : readExact (n - part.length) stream with
            | error e => simp [hmore, bind, Except.bind] at h
            | ok p =>
              obtain ⟨more, rest'⟩ := p
              simp only [hmore, bind, Except.bind, pure, Except.pure] at h
              cases h
              have := ih hmore
              simp only [remaining]
              omega

/-- The next frame, or `none` when the stream ends before one. -/
def readFrame (limit : Nat) (stream : List Arrival) :
    Except StreamFault (Option (Bytes × List Arrival)) :=
  match readExact Layout.prefixLength stream with
  | .error .early | .error .ended => .ok none
  | .error fault => .error fault
  | .ok (head, rest) => do
    let length := Bytes.toNat head
    if length < Layout.prefixLength then .error (.tooShort length)
    if limit < length then .error (.tooLong length limit)
    let (body, rest) ← readExact (length - Layout.prefixLength) rest
    return some (head ++ body, rest)

/-- A frame takes octets off the stream. -/
theorem remaining_of_readFrame {limit : Nat} {stream rest : List Arrival} {frame : Bytes}
    (h : readFrame limit stream = .ok (some (frame, rest))) : remaining rest < remaining stream := by
  unfold readFrame at h
  split at h
  · cases h
  · cases h
  · cases h
  · rename_i head afterHead hhead
    have h₁ := remaining_of_readExact hhead
    simp only [bind, Except.bind, pure, Except.pure] at h
    split at h
    · cases h
    · split at h
      · cases h
      · split at h
        · cases h
        · rename_i p hbody
          obtain ⟨body, rest'⟩ := p
          cases h
          have h₂ := remaining_of_readExact hbody
          simp only [Layout.prefixLength] at h₁ h₂ ⊢
          omega

/-- All the frames of a stream, and how it ended. -/
def readFrames (limit : Nat) (stream : List Arrival) : List Bytes × Except StreamFault Unit :=
  match h : readFrame limit stream with
  | .error fault => ([], .error fault)
  | .ok none => ([], .ok ())
  | .ok (some (frame, rest)) =>
    have := remaining_of_readFrame h
    let (frames, result) := readFrames limit rest
    (frame :: frames, result)
termination_by remaining stream

end Stream
end Switchboard
