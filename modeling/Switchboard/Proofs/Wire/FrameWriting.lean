import Switchboard.Proofs.Wire.MetadataOctets
import Switchboard.Frame.Framing

/-! The writing of a frame told step by step. The scratch space is taken out of the parcel and emptied, the parts of the
    frame are added to it one after the other up to a size that does not fit, and it goes back into the parcel with what
    was added; then the mask is laid over it where it is. Each part adds what its piece says to whatever octets are
    there (`Adds`), so that the outcome is that of `Parcel.frame` (`writeOut_eq`). -/

namespace Switchboard

/-- Work that adds to octets, and may stop before it is done. What was added before stays there. -/
abbrev Adding := ExceptT Fault (StateM Bytes)

namespace Adding

variable {bs : Bytes} {work next : Adding Unit} {pieces more : List Piece}

/-! ### The steps -/

def put (bs : Bytes) : Adding Unit := modify (· ++ bs)

/-- Adds a size in two octets, if it fits. -/
def putSize (field : MetadataField) (n : Nat) : Adding Unit :=
  if n < 65536 then put (Bytes.bigEndian 2 n) else throw (.metadataTooLong field n)

def putValue (value : String) : Adding Unit := do
  putSize .value (Text.size value)
  put (Text.bytes value)

def putValues : List String → Adding Unit
  | [] => pure ()
  | value :: rest => do
    putValue value
    putValues rest

def putEntry (e : MetadataEntry) : Adding Unit := do
  putSize .key (Text.size e.1)
  putSize .count e.2.length
  put (Text.bytes e.1)
  putValues e.2

def putEntries : List MetadataEntry → Adding Unit
  | [] => pure ()
  | e :: rest => do
    putEntry e
    putEntries rest

/-- Adds the frame of a packet whose length and spare octet were worked out. -/
def putFrame (l : Layout) (p : Packet) (total : Nat) (spare : UInt8) : Adding Unit := do
  put (Bytes.bigEndian 4 total)
  put [p.command.toUInt8]
  put [p.flags]
  put [p.reserved]
  put [spare]
  put (Bytes.bigEndian 8 p.session.toNat)
  put (Bytes.bigEndian 4 p.payload.length)
  put (l.keyOctets p)
  put p.payload
  putEntries p.metadata.entries

/-! ### What the steps add -/

/-- Work adds what is written of some pieces to whatever octets are there, and stops where their writing does. -/
def Adds (work : Adding Unit) (pieces : List Piece) : Prop :=
  ∀ bs, work.run.run bs = ((Piece.write pieces).2, bs ++ (Piece.write pieces).1)

namespace Adds

theorem pure : Adds (pure ()) [] := fun bs => by
  rw [show Piece.write [] = ([], .ok ()) from rfl, List.append_nil]
  rfl

theorem put (bs : Bytes) : Adds (put bs) [.ok bs] := fun start => by
  rw [Piece.write_ok, show Piece.write [] = ([], .ok ()) from rfl, List.append_nil]
  rfl

theorem throw (fault : Fault) : Adds (throw fault) [.error fault] := fun bs => by
  rw [show Piece.write [.error fault] = ([], .error fault) from rfl, List.append_nil]
  rfl

theorem andThen (first : Adds work pieces) (second : Adds next more) :
    Adds (do work; next) (pieces ++ more) := fun bs => by
  have begun : (do work; next : Adding Unit).run.run bs = match work.run.run bs with
      | (.ok (), there) => next.run.run there
      | (.error fault, there) => (.error fault, there) := by
    change (ExceptT.bindCont (fun _ => next) (work.run.run bs).1).run (work.run.run bs).2 = _
    rcases work.run.run bs with ⟨fault | _, there⟩ <;> rfl
  rw [begun, first bs]
  rcases written : Piece.write pieces with ⟨octets, fault | _⟩
  · rw [Piece.write_append_of_error (congrArg Prod.snd written), written]
  · rw [Piece.write_append_of_ok written]
    dsimp only
    rw [second, List.append_assoc]

end Adds

theorem putSize_adds (field : MetadataField) (n : Nat) : Adds (putSize field n) [Metadata.sizePiece field n] := by
  unfold putSize Metadata.sizePiece
  split
  · exact .put _
  · exact .throw _

theorem putValue_adds (value : String) : Adds (putValue value) (Metadata.valuePieces value) :=
  (putSize_adds .value _).andThen (.put _)

theorem putValues_adds : ∀ values : List String, Adds (putValues values) (values.flatMap Metadata.valuePieces)
  | [] => .pure
  | value :: rest => (putValue_adds value).andThen (putValues_adds rest)

theorem putEntry_adds (e : MetadataEntry) : Adds (putEntry e) (Metadata.entryPieces e) :=
  (putSize_adds .key _).andThen ((putSize_adds .count _).andThen ((Adds.put _).andThen (putValues_adds e.2)))

theorem putEntries_adds : ∀ entries : List MetadataEntry,
    Adds (putEntries entries) (entries.flatMap Metadata.entryPieces)
  | [] => .pure
  | e :: rest => (putEntry_adds e).andThen (putEntries_adds rest)

/-- Pieces that come one after the other are as good as one. -/
theorem write_pair (a b : Bytes) (rest : List Piece) :
    Piece.write (.ok a :: .ok b :: rest) = Piece.write (.ok (a ++ b) :: rest) := by
  rw [Piece.write_ok, Piece.write_ok, Piece.write_ok, List.append_assoc]

theorem putFrame_adds (l : Layout) (p : Packet) (total : Nat) (spare : UInt8) :
    Adds (putFrame l p total spare) (l.framePieces p total spare) := by
  have parts := (Adds.put (Bytes.bigEndian 4 total)).andThen ((Adds.put [p.command.toUInt8]).andThen
    ((Adds.put [p.flags]).andThen ((Adds.put [p.reserved]).andThen ((Adds.put [spare]).andThen
    ((Adds.put (Bytes.bigEndian 8 p.session.toNat)).andThen ((Adds.put (Bytes.bigEndian 4 p.payload.length)).andThen
    ((Adds.put (l.keyOctets p)).andThen ((Adds.put p.payload).andThen (putEntries_adds p.metadata.entries)))))))))
  intro bs
  refine (parts bs).trans ?_
  simp only [List.singleton_append, write_pair]
  rfl

end Adding

namespace Parcel

variable {f : Framing} {p : Parcel} {total : Nat} {spare : UInt8} {fault : Fault}

/-! ### The parcel -/

/-- Writes the frame of a packet, not masked, into the scratch space of its parcel. The space is out of the parcel
    meanwhile, and goes back even when the frame could not be written to its end. -/
def layOut (p : Parcel) (f : Framing) : Parcel × Except Fault Unit :=
  match f.layout.measure f.limit p.toPacket with
  | .error fault => (p, .error fault)
  | .ok (total, spare) =>
    let scratch := p.scratch.reserve total
    let p := p.takeScratch
    let (result, octets) := (Adding.putFrame f.layout p.toPacket total spare).run.run scratch.octets
    ({ p with scratch := { scratch with octets } }, result)

/-- Lays the mask over what is in the scratch space, behind the length. -/
def cover (p : Parcel) (f : Framing) : Parcel :=
  if f.mask.isNone then p
  else
    let bs := p.scratch.octets
    let octets := bs.take Layout.prefixLength ++ f.mask.apply (bs.drop Layout.prefixLength)
    { p with scratch := { p.scratch with octets } }

/-- Writes the frame of a packet. It is then what is in the scratch space. -/
def writeOut (p : Parcel) (f : Framing) : Parcel × Except Fault Bytes :=
  match p.layOut f with
  | (p, .error fault) => (p, .error fault)
  | (p, .ok ()) => (p.cover f, .ok (p.cover f).scratch.octets)

theorem layOut_of_error (refused : f.layout.measure f.limit p.toPacket = .error fault) :
    p.layOut f = (p, .error fault) := by
  rw [layOut, refused]

theorem layOut_of_ok (measured : f.layout.measure f.limit p.toPacket = .ok (total, spare)) :
    p.layOut f =
      let (octets, result) := Piece.write (f.layout.framePieces p.toPacket total spare)
      ({ p with scratch := { p.scratch.reserve total with octets } }, result) := by
  have added := Adding.putFrame_adds f.layout p.toPacket total spare (p.scratch.reserve total).octets
  rw [layOut, measured]
  dsimp only [takeScratch]
  rw [added]
  rfl

theorem cover_eq (p : Parcel) (f : Framing) :
    p.cover f = { p with scratch := { p.scratch with octets := f.disguise p.scratch.octets } } := by
  unfold cover Framing.disguise
  cases f.mask with
  | none =>
    have whole : p.scratch.octets.take Layout.prefixLength ++
        Mask.none.apply (p.scratch.octets.drop Layout.prefixLength) = p.scratch.octets := List.take_append_drop ..
    rw [whole]
    rfl
  | xor key nonempty => rfl

theorem writeOut_eq (p : Parcel) (f : Framing) : p.writeOut f = p.frame f := by
  unfold writeOut frame
  rcases measured : f.layout.measure f.limit p.toPacket with fault | ⟨total, spare⟩
  · rw [layOut_of_error measured]
  · rw [layOut_of_ok measured]
    dsimp only
    rcases Piece.write (f.layout.framePieces p.toPacket total spare) with ⟨octets, fault | _⟩
    · rfl
    · simp only [cover_eq]

end Parcel
end Switchboard
