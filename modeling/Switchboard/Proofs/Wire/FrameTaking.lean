import Switchboard.Proofs.Wire.FrameOctets

/-! The reading of a frame told step by step: parts are cut out of the octets from one computed place to another, where
    a cut beyond them has no outcome at all, and the parcel is changed one field after the other, where a fault leaves
    what was changed before it. Each cut turns out to be within the octets (`fill_eq`), and no field is changed before
    the last fault is ruled out, so that the outcome is that of `Parcel.unframe` (`run_unframe`). -/

namespace Switchboard

/-- Work on a parcel that may find fault with some octets, and has no outcome when it takes octets that are not there.
    A fault leaves the parcel as it was changed up to then. -/
abbrev Taking := ExceptT Fault (StateT Parcel Option)

namespace Taking

open Layout (octet field payloadSize)

variable {α : Type} {l : Layout} {limit i j width : Nat} {frame bs : Bytes} {p : Parcel}

/-! ### The steps -/

def nowhere : Taking α := ExceptT.mk fun _ => none

/-- The octets of a frame from `i` up to `j`. -/
def cut (frame : Bytes) (i j : Nat) : Taking Bytes :=
  if i ≤ j ∧ j ≤ frame.length then pure ((frame.drop i).take (j - i)) else nowhere

/-- The number in the first octets of what is left of a header. -/
def number (width : Nat) (bs : Bytes) : Taking (Nat × Bytes) :=
  match Bytes.number width bs with
  | some found => pure found
  | none => nowhere

def checkLength (l : Layout) (limit : Nat) (frame : Bytes) : Taking Unit := do
  if frame.length < l.headerLength then throw (.frameTooShort frame.length l.headerLength)
  if min limit Layout.largest < frame.length then throw (.packetTooLarge frame.length (min limit Layout.largest))
  let stated ← cut frame 0 Layout.prefixLength
  let (stated, _) ← number 4 stated
  if stated ≠ frame.length then throw (.sizeMismatch stated frame.length)

def readHeader (l : Layout) (frame : Bytes) : Taking Layout.Header := do
  let bs ← cut frame Layout.prefixLength l.headerLength
  let (command, bs) ← number 1 bs
  let command ← match Command.ofUInt8? (UInt8.ofNat command) with
    | some command => pure command
    | none => throw (.unknownCommand command)
  let (flags, bs) ← number 1 bs
  let (reserved, bs) ← number 1 bs
  let (spare, bs) ← number 1 bs
  let (session, bs) ← number 8 bs
  let (payloadLength, bs) ← number 4 bs
  let id ← match l with
    | .uri => pure 0
    | .id => do
      let (id, _) ← number 4 bs
      pure id
  return { command, flags := UInt8.ofNat flags, reserved := UInt8.ofNat reserved, spare := UInt8.ofNat spare
           session := UInt64.ofNat session, payloadLength, id := UInt32.ofNat id }

def readKey (l : Layout) (frame : Bytes) (keyEnd : Nat) : Taking String :=
  match l with
  | .uri => do
    let bs ← cut frame l.headerLength keyEnd
    MonadExcept.ofExcept (Layout.readUri bs)
  | .id => pure ""

/-- The first `n` octets of what is left of the metadata, and the octets after them. -/
def front (n : Nat) (bs : Bytes) : Taking (Bytes × Bytes) := do
  if bs.length < n then throw .metadataTruncated
  let head ← cut bs 0 n
  let rest ← cut bs n bs.length
  return (head, rest)

def readSize (bs : Bytes) : Taking (Nat × Bytes) := do
  let (head, rest) ← front 2 bs
  return (Bytes.toNat head, rest)

def readText (n : Nat) (bs : Bytes) : Taking (String × Bytes) := do
  let (head, rest) ← front n bs
  match Text.ofBytes? head with
  | some s => return (s, rest)
  | none => throw .metadataNotText

def readValues : Nat → Bytes → List String → Taking (List String × Bytes)
  | 0, bs, done => return (done.reverse, bs)
  | count + 1, bs, done => do
    let (n, bs) ← readSize bs
    let (value, bs) ← readText n bs
    readValues count bs (value :: done)

def readEntry (bs : Bytes) : Taking (MetadataEntry × Bytes) := do
  let (keySize, bs) ← readSize bs
  let (count, bs) ← readSize bs
  let (key, bs) ← readText keySize bs
  let (values, bs) ← readValues count bs []
  return ((key, values), bs)

/-- The entries up to the end, in no more than some rounds. -/
def readEntries : Nat → Bytes → List MetadataEntry → Taking (List MetadataEntry)
  | 0, _, _ => nowhere
  | rounds + 1, bs, done =>
    if bs.isEmpty then return done.reverse
    else do
      let (e, bs) ← readEntry bs
      readEntries rounds bs (e :: done)

def readMetadata (bs : Bytes) : Taking Metadata := do
  let entries ← readEntries (bs.length + 1) bs []
  return Metadata.ofEntries entries

/-- Where the payload begins under a header. -/
def payloadStart (l : Layout) (header : Layout.Header) : Nat :=
  match l with
  | .uri => l.headerLength + header.spare.toNat
  | .id => l.headerLength

/-- Changes the fields of the parcel one after the other. -/
def store (header : Layout.Header) (uri : String) (metadata : Metadata) (frame : Bytes) (i j : Nat) : Taking Unit := do
  modify fun p => { p with command := header.command }
  modify fun p => { p with flags := header.flags }
  modify fun p => { p with reserved := header.reserved }
  modify fun p => { p with session := header.session }
  modify fun p => { p with uri }
  modify fun p => { p with id := header.id }
  modify fun p => { p with metadata }
  let payload ← cut frame i j
  modify fun p => { p with payload }

/-- Reads a frame into the parcel. -/
def fill (l : Layout) (limit : Nat) (frame : Bytes) : Taking Unit := do
  checkLength l limit frame
  let header ← readHeader l frame
  let payloadEnd := payloadStart l header + header.payloadLength
  if frame.length < payloadEnd then throw (.payloadOverrun header.payloadLength frame.length)
  let uri ← readKey l frame (payloadStart l header)
  let bs ← cut frame payloadEnd frame.length
  let metadata ← readMetadata bs
  store header uri metadata frame (payloadStart l header) payloadEnd

/-- Lifts the mask from what follows the length of a frame. -/
def unmask (f : Framing) (frame : Bytes) : Taking Bytes :=
  if Layout.prefixLength < frame.length ∧ f.mask.isNone = false then do
    let stated ← cut frame 0 Layout.prefixLength
    let rest ← cut frame Layout.prefixLength frame.length
    return stated ++ f.mask.apply rest
  else pure frame

def unframe (f : Framing) (frame : Bytes) : Taking Unit := do
  let plain ← unmask f frame
  fill f.layout f.limit plain

/-! ### Each cut is within the octets -/

theorem ofExcept_ok (a : α) : (MonadExcept.ofExcept (.ok a : Except Fault α) : Taking α) = pure a := rfl

theorem ofExcept_bind {β : Type} (x : Except Fault α) (f : α → Except Fault β) :
    (MonadExcept.ofExcept (x >>= f) : Taking β) = MonadExcept.ofExcept x >>= fun a => MonadExcept.ofExcept (f a) := by
  rcases x with fault | a <;> rfl

/-- What is left of a frame from `i` up to `j`. -/
def part (frame : Bytes) (i j : Nat) : Bytes := (frame.drop i).take (j - i)

theorem cut_eq (h : i ≤ j) (hj : j ≤ frame.length) : cut frame i j = pure (part frame i j) :=
  if_pos ⟨h, hj⟩

theorem cut_add {n : Nat} (h : i + n ≤ frame.length) : cut frame i (i + n) = pure ((frame.drop i).take n) := by
  rw [cut_eq (Nat.le_add_right i n) h, part, Nat.add_sub_cancel_left]

theorem cut_length (h : i ≤ frame.length) : cut frame i frame.length = pure (frame.drop i) := by
  rw [cut_eq h (Nat.le_refl _), part, List.take_of_length_le (Nat.le_of_eq List.length_drop)]

theorem number_part (h : i + width ≤ j) (hj : j ≤ frame.length) :
    number width (part frame i j) = pure (field frame i width, part frame (i + width) j) := by
  have found : Bytes.number width (part frame i j) = some (field frame i width, part frame (i + width) j) := by
    have first : (part frame i j).take width = (frame.drop i).take width := by
      rw [part, List.take_take, Nat.min_eq_left (by omega)]
    have rest : (part frame i j).drop width = part frame (i + width) j := by
      rw [part, part, List.drop_take, List.drop_drop, Nat.sub_add_eq]
    rw [Bytes.number, Bytes.cut, first, if_pos (Layout.length_take_drop (by omega)), rest]
    rfl
  rw [number, found]

/-! ### The metadata -/

theorem front_eq (n : Nat) (bs : Bytes) : front n bs = match Bytes.cut n bs with
    | some found => pure found
    | none => throw .metadataTruncated := by
  unfold front
  by_cases short : bs.length < n
  · rw [Bytes.cut_eq_none_iff.mpr short, if_pos short]
    rfl
  · have within := Nat.le_of_not_lt short
    have found : Bytes.cut n bs = some (bs.take n, bs.drop n) :=
      Bytes.cut_eq_some_iff.mpr ⟨(List.take_append_drop n bs).symm, List.length_take_of_le within⟩
    have first : cut bs 0 n = pure (bs.take n) := cut_eq (Nat.zero_le n) within
    rw [found, if_neg short, first, cut_length within]
    rfl

theorem readSize_eq (bs : Bytes) : readSize bs = MonadExcept.ofExcept (Metadata.readSize bs) := by
  unfold readSize Metadata.readSize Bytes.number
  rw [front_eq]
  rcases Bytes.cut 2 bs with _ | found <;> rfl

theorem readText_eq (n : Nat) (bs : Bytes) : readText n bs = MonadExcept.ofExcept (Metadata.readText n bs) := by
  unfold readText Metadata.readText
  rw [front_eq]
  rcases Bytes.cut n bs with _ | ⟨head, rest⟩
  · rfl
  · cases h : Text.ofBytes? head <;> simp [h] <;> rfl

theorem readValues_eq (count : Nat) (bs : Bytes) (done : List String) :
    readValues count bs done = MonadExcept.ofExcept (Metadata.readValues count bs done) := by
  induction count generalizing bs done with
  | zero => rfl
  | succ count ih => simp only [readValues, Metadata.readValues, ofExcept_bind, readSize_eq, readText_eq, ih]

theorem readEntry_eq (bs : Bytes) : readEntry bs = MonadExcept.ofExcept (Metadata.readEntry bs) := by
  simp only [readEntry, Metadata.readEntry, ofExcept_bind, readSize_eq, readText_eq, readValues_eq]
  rfl

/-- One round for each octet is enough, as an entry takes up octets. -/
theorem readEntries_eq {rounds : Nat} {done : List MetadataEntry} (enough : bs.length < rounds) :
    readEntries rounds bs done = MonadExcept.ofExcept (Metadata.readEntries bs done) := by
  induction rounds generalizing bs done with
  | zero => exact absurd enough (Nat.not_lt_zero _)
  | succ rounds ih =>
    unfold readEntries Metadata.readEntries
    split
    · rfl
    · rw [readEntry_eq]
      split
      · rename_i e rest found
        have shorter := Metadata.length_of_readEntry found
        dsimp only
        rw [found, ofExcept_ok, pure_bind]
        exact ih (Nat.lt_of_lt_of_le shorter (Nat.le_of_lt_succ enough))
      · rename_i fault refused
        rw [refused]
        rfl

theorem readMetadata_eq (bs : Bytes) : readMetadata bs = MonadExcept.ofExcept (Metadata.decode bs) := by
  unfold readMetadata Metadata.decode
  rw [readEntries_eq (Nat.lt_succ_self _)]
  rcases Metadata.readEntries bs [] with fault | entries <;> rfl

/-! ### The frame -/

theorem octet_eq (h : i < frame.length) : field frame i 1 = (octet frame i).toNat := by
  rw [field, Layout.drop_eq_octet h]
  simp [Bytes.toNat]

theorem checkLength_eq : checkLength l limit frame = MonadExcept.ofExcept (l.checkLength limit frame) := by
  unfold checkLength Layout.checkLength
  by_cases short : frame.length < l.headerLength
  · simp only [if_pos short]
    rfl
  by_cases large : min limit Layout.largest < frame.length
  · simp only [if_neg short, if_pos large]
    rfl
  have within : Layout.prefixLength ≤ frame.length := by
    refine Nat.le_trans ?_ (Nat.le_of_not_lt short)
    cases l <;> decide
  have stated : number 4 (part frame 0 Layout.prefixLength) = pure (field frame 0 4, _) :=
    number_part (Nat.le_refl 4) within
  simp only [if_neg short, if_neg large, cut_eq (Nat.zero_le _) within, stated, pure_bind]
  by_cases differs : field frame 0 4 ≠ frame.length
  · simp only [if_pos differs]
    rfl
  · simp only [if_neg differs]
    rfl

theorem readHeader_eq (long : l.headerLength ≤ frame.length) :
    readHeader l frame = MonadExcept.ofExcept (l.readHeader frame) := by
  have whole : 20 ≤ l.headerLength := by cases l <;> decide
  have next : ∀ {i width : Nat}, i + width ≤ l.headerLength →
      number width (part frame i l.headerLength) = pure (field frame i width, part frame (i + width) l.headerLength) :=
    fun h => number_part h long
  have first : cut frame Layout.prefixLength l.headerLength = pure (part frame 4 l.headerLength) :=
    cut_eq (Nat.le_trans (by decide) whole) long
  have octets : ∀ {i : Nat}, i < 20 → UInt8.ofNat (field frame i 1) = octet frame i := fun h => by
    rw [octet_eq (by omega), UInt8.ofNat_toNat]
  unfold readHeader Layout.readHeader
  simp (disch := omega) only [first, next, pure_bind, octets]
  cases Command.ofUInt8? (octet frame 4) with
  | none => rw [octet_eq (by omega)]; rfl
  | some command =>
    cases l with
    | uri => rfl
    | id =>
      rw [number_part (by decide) long]
      rfl

theorem readKey_eq (within : l.keyEnd frame ≤ frame.length) :
    readKey l frame (l.keyEnd frame) = MonadExcept.ofExcept (l.readKey frame) := by
  cases l with
  | id => rfl
  | uri =>
    unfold readKey
    dsimp only
    rw [Layout.keyEnd] at within ⊢
    rw [cut_add within]
    rfl

theorem headerLength_le_of_checkLength (h : l.checkLength limit frame = .ok ()) : l.headerLength ≤ frame.length := by
  refine Nat.le_of_not_lt fun short => ?_
  have stop : l.checkLength limit frame = .error (.frameTooShort frame.length l.headerLength) := if_pos short
  rw [stop] at h
  cases h

theorem header_of_readHeader {header : Layout.Header} (h : l.readHeader frame = .ok header) :
    (header.flags = octet frame 5 ∧ header.reserved = octet frame 6 ∧ header.session = UInt64.ofNat (field frame 8 8)) ∧
      payloadStart l header = l.keyEnd frame ∧ header.payloadLength = payloadSize frame := by
  unfold Layout.readHeader at h
  split at h
  · cases h
  · cases h
    exact ⟨⟨rfl, rfl, rfl⟩, by cases l <;> rfl, rfl⟩

theorem store_eq {header : Layout.Header} {uri : String} {metadata : Metadata} {n : Nat} (h : i + n ≤ frame.length) :
    store header uri metadata frame i (i + n) = modify fun p =>
      { toPacket := { command := header.command, flags := header.flags, reserved := header.reserved
                      session := header.session, uri, id := header.id, payload := (frame.drop i).take n, metadata }
        scratch := p.scratch } := by
  unfold store
  rw [cut_add h]
  rfl

/-- A parcel is filled with the packet that the octets stand for, and no cut fails. -/
theorem fill_eq : fill l limit frame = (do
    let q ← MonadExcept.ofExcept (l.decode limit frame)
    modify fun p => { toPacket := q, scratch := p.scratch }) := by
  rw [Layout.decode_eq]
  unfold fill
  rw [checkLength_eq]
  rcases checked : l.checkLength limit frame with fault | _
  · rfl
  rw [readHeader_eq (headerLength_le_of_checkLength checked)]
  rcases read : l.readHeader frame with fault | header
  · rfl
  -- From here on both readings have the same header; what is left is to see that its lengths stay within the frame.
  obtain ⟨⟨flags, reserved, session⟩, key, size⟩ := header_of_readHeader read
  rw [← flags, ← reserved, ← session, ofExcept_ok, ofExcept_ok, pure_bind, pure_bind]
  simp only [key, size]
  by_cases overrun : frame.length < l.keyEnd frame + payloadSize frame
  · simp only [if_pos overrun]
    rfl
  have within := Nat.le_of_not_lt overrun
  simp only [if_neg overrun, cut_length within, store_eq within, pure_bind]
  rw [readKey_eq (Nat.le_trans (Nat.le_add_right ..) within)]
  rcases l.readKey frame with fault | path
  · rfl
  rw [ofExcept_ok, pure_bind, readMetadata_eq]
  change MonadExcept.ofExcept (Metadata.decode (l.metadataPart frame)) >>= _ = _
  rcases Metadata.decode (l.metadataPart frame) with fault | metadata <;> rfl

theorem unmask_eq {f : Framing} : unmask f frame = pure (f.disguise frame) := by
  unfold unmask
  by_cases masked : Layout.prefixLength < frame.length ∧ f.mask.isNone = false
  · have first : cut frame 0 Layout.prefixLength = pure (frame.take Layout.prefixLength) :=
      cut_eq (Nat.zero_le _) (Nat.le_of_lt masked.1)
    rw [if_pos masked, first, cut_length (Nat.le_of_lt masked.1)]
    rfl
  · rw [if_neg masked]
    have plain : f.mask.apply (frame.drop Layout.prefixLength) = frame.drop Layout.prefixLength := by
      rcases Classical.not_and_iff_not_or_not.mp masked with short | none
      · have nothing : frame.drop Layout.prefixLength = [] := List.drop_of_length_le (Nat.le_of_not_lt short)
        rw [nothing, ← List.length_eq_zero_iff, Mask.length_apply, List.length_nil]
      · cases hmask : f.mask with
        | none => rfl
        | xor key nonempty => exact absurd (by rw [hmask]; rfl) none
    rw [Framing.disguise, plain, List.take_append_drop]

/-- Filling a parcel has an outcome whatever the octets are. -/
theorem run_fill (p : Parcel) : (fill l limit frame).run.run p = some (match l.decode limit frame with
    | .ok q => (.ok (), { toPacket := q, scratch := p.scratch })
    | .error fault => (.error fault, p)) := by
  rw [fill_eq]
  rcases l.decode limit frame with fault | q <;> rfl

theorem run_unframe (f : Framing) (p : Parcel) :
    (unframe f frame).run.run p = some ((p.unframe f frame).2, (p.unframe f frame).1) := by
  unfold unframe
  rw [unmask_eq, pure_bind, run_fill]
  unfold Parcel.unframe Framing.decode
  rcases f.layout.decode f.limit (f.disguise frame) with fault | q <;> rfl

end Taking
end Switchboard
