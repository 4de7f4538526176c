import Mathlib.Data.List.Induction
import Switchboard.Proofs.Engine.Steps
import Switchboard.Proofs.FrameRoundTrip
import Switchboard.Proofs.Wire.FrameWriting

/-! Nothing of what was done to a packet shows when it is framed, but for what its fields are now. The scratch space may
    hold an earlier frame, under whatever mask, or the beginning of one that could not be written to its end; a frame is
    begun anew in it. To write a frame, or to hand it to an output, changes no field. -/

namespace Switchboard

/-- One thing done to a packet, whether or not it succeeds. -/
inductive Handling where
  /-- Some of the fields are set. -/
  | edit (change : Packet → Packet)
  | frame (f : Framing)
  /-- The frame is handed to an output, which is not the same each time and may fail. -/
  | send (f : Framing) (output : Bytes → Except Fault Unit)
  | unframe (f : Framing) (frame : Bytes)
  | reset
  /-- The frame is kept elsewhere, with the space that it is in. -/
  | takeScratch

/-- What something done to a packet makes of its fields. -/
def Handling.shows : Handling → Packet → Packet
  | .edit change, p => change p
  | .frame _, p | .send _ _, p | .takeScratch, p => p
  | .unframe f bs, p => (f.decode bs).toOption.getD p
  | .reset, _ => .blank

namespace Parcel

/-- A parcel that nothing was written in. -/
def fresh (p : Packet) : Parcel := { toPacket := p }

/-- Frames a packet and hands the frame to an output; the packet stays with its holder. -/
def send (p : Parcel) (f : Framing) (output : Bytes → Except Fault Unit) : Parcel × Except Fault Unit :=
  match p.frame f with
  | (p, .error fault) => (p, .error fault)
  | (p, .ok frame) => (p, output frame)

def undergo (p : Parcel) : Handling → Parcel
  | .edit change => p.edit change
  | .frame f => (p.frame f).1
  | .send f output => (p.send f output).1
  | .unframe f frame => (p.unframe f frame).1
  | .reset => p.reset
  | .takeScratch => p.takeScratch

/-- The parcel after all of a history, in its order. -/
def through (p : Parcel) (history : List Handling) : Parcel := history.foldl undergo p

/-- What is written of a parcel is what is written of one without a past, and its fields stay as they are. -/
structure Unmarked (p : Parcel) (f : Framing) : Prop where
  framed : (p.frame f).2 = ((fresh p.toPacket).frame f).2
  fields : (p.frame f).1.toPacket = p.toPacket
  /-- The frame lies in the scratch space, with its mask. -/
  lies : ∀ frame, (p.frame f).2 = .ok frame → (p.frame f).1.scratch.octets = frame
  again : ((p.frame f).1.frame f).2 = (p.frame f).2
  sent : ∀ output, (p.send f output).2 = ((fresh p.toPacket).send f output).2
  sentFields : ∀ output, (p.send f output).1.toPacket = p.toPacket
  /-- A connection that the packet is sent on is left as by one without a past, whatever comes back to it. -/
  onLine : ∀ (setup : Setup) (inner : Inner) (s t : Engine) (q : Parcel) (result : Except Fault Unit),
    setup.framing = f → Engine.send setup inner p s = .ok ((q, result), t) →
      q.toPacket = p.toPacket ∧ ∃ q', Engine.send setup inner (fresh p.toPacket) s = .ok ((q', result), t)

variable {p q : Parcel} {f : Framing} {history : List Handling} {handling : Handling}
  {output : Bytes → Except Fault Unit}

/-! ### One frame -/

/-- The same is written of parcels with the same fields. -/
theorem frame_congr (same : p.toPacket = q.toPacket) : (p.frame f).2 = (q.frame f).2 := by
  rw [frame_eq_encode, frame_eq_encode, same]

theorem scratch_frame {frame : Bytes} (framed : (p.frame f).2 = .ok frame) : (p.frame f).1.scratch.octets = frame := by
  rw [← writeOut_eq] at framed ⊢
  unfold writeOut at framed ⊢
  split at framed
  · cases framed
  · exact Except.ok.inj framed

theorem send_eq (p : Parcel) (f : Framing) (output : Bytes → Except Fault Unit) :
    p.send f output = ((p.frame f).1, (p.frame f).2.bind output) := by
  unfold send
  rcases p.frame f with ⟨q, fault | frame⟩ <;> rfl

theorem engine_send_eq (setup : Setup) (inner : Inner) (p : Parcel) :
    Engine.send setup inner p = match (p.frame setup.framing).2 with
      | .error fault => pure ((p.frame setup.framing).1, .error fault)
      | .ok frame => (do
        let result ← Engine.write inner frame
        pure ((p.frame setup.framing).1, result)) := by
  unfold Engine.send
  rcases p.frame setup.framing with ⟨q, fault | frame⟩ <;> rfl

/-- A connection does the same with the frames of packets that have the same fields. -/
theorem engine_send_congr {setup : Setup} {inner : Inner} {s t : Engine} {r : Parcel} {result : Except Fault Unit}
    (same : p.toPacket = q.toPacket) (sent : Engine.send setup inner p s = .ok ((r, result), t)) :
    r = (p.frame setup.framing).1 ∧ Engine.send setup inner q s = .ok (((q.frame setup.framing).1, result), t) := by
  rw [engine_send_eq] at sent ⊢
  rw [← frame_congr same]
  generalize (p.frame setup.framing).2 = framed at sent ⊢
  rcases framed with fault | frame
  · cases sent
    exact ⟨rfl, rfl⟩
  · obtain ⟨_, _, wrote, rest⟩ := Engine.bind_eq_ok.mp sent
    cases rest
    exact ⟨rfl, Engine.bind_eq_ok.mpr ⟨_, _, wrote, rfl⟩⟩

theorem unmarked (p : Parcel) (f : Framing) : p.Unmarked f where
  framed := frame_congr rfl
  fields := p.frame_toPacket f
  lies _ := scratch_frame
  again := frame_congr (p.frame_toPacket f)
  sent output := by rw [send_eq, send_eq, frame_congr (p := p) (q := fresh p.toPacket) rfl]
  sentFields output := by rw [send_eq, frame_toPacket]
  onLine setup inner s t q result := by
    rintro rfl sent
    have same : p.toPacket = (fresh p.toPacket).toPacket := rfl
    obtain ⟨rfl, alike⟩ := engine_send_congr same sent
    exact ⟨p.frame_toPacket setup.framing, _, alike⟩

/-! ### All of a history -/

theorem undergo_toPacket (p : Parcel) (handling : Handling) :
    (p.undergo handling).toPacket = handling.shows p.toPacket := by
  cases handling with
  | edit change => rfl
  | frame f => exact p.frame_toPacket f
  | send f output => exact (p.unmarked f).sentFields output
  | unframe f bs =>
    change (p.unframe f bs).1.toPacket = (f.decode bs).toOption.getD p.toPacket
    unfold unframe
    rcases f.decode bs with fault | q <;> rfl
  | reset => rfl
  | takeScratch => rfl

theorem through_toPacket (p : Parcel) (history : List Handling) :
    (p.through history).toPacket = history.foldl (fun q handling => handling.shows q) p.toPacket := by
  induction history using List.reverseRecOn with
  | nil => rfl
  | append_singleton before handling ih =>
    rw [through, List.foldl_concat, undergo_toPacket, List.foldl_concat]
    exact congrArg handling.shows ih

/-- After any history the fields of a packet are what was made of them, and to write, mask and send frames made nothing
    of them. What is written of the packet then, step by step or at once, is what is written of a fresh one with these
    fields, as often as it is written. -/
theorem frames_do_not_show_the_past (p : Parcel) (history : List Handling) (f : Framing) :
    (p.through history).toPacket = history.foldl (fun q handling => handling.shows q) p.toPacket ∧
    (p.through history).writeOut f = (p.through history).frame f ∧ (p.through history).Unmarked f :=
  ⟨p.through_toPacket history, writeOut_eq .., unmarked ..⟩

end Parcel
end Switchboard
