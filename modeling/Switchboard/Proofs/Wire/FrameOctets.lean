import Switchboard.Frame.Framing
import Switchboard.Proofs.Wire.MetadataOctets

/-! Frames and the packets they carry. What a packet must meet to be written (`Demand`) and what octets must meet to
    be read (`Clause`) are lists of conditions, and the first that fails decides the fault. A frame that is read is
    put together again from the fields of its packet, its spare octet and its metadata entries (`Carries.compose`);
    octets put together so are read, and as that packet (`carries_composed`). -/

namespace Switchboard

/-! ### The first of some conditions that fails -/

section FirstBroken

variable {α : Type} {holds : α → Prop} {clauses : List α} {c : α}

/-- `c` is the first of some clauses that does not hold. -/
def FirstBroken (holds : α → Prop) : List α → α → Prop
  | [], _ => False
  | b :: rest, c => (c = b ∧ ¬ holds b) ∨ (holds b ∧ FirstBroken holds rest c)

/-- Either every clause of a kind holds, or one is the first that does not. -/
theorem hold_or_broken (holds : α → Prop) (complete : ∀ c, c ∈ clauses) :
    (∀ c, holds c) ∨ ∃ c, FirstBroken holds clauses c := by
  suffices listed : (∀ c ∈ clauses, holds c) ∨ ∃ c, FirstBroken holds clauses c from
    listed.imp_left fun all c => all c (complete c)
  clear complete
  induction clauses with
  | nil => exact .inl fun _ h => nomatch h
  | cons b rest ih =>
    by_cases hb : holds b
    · rcases ih with hrest | ⟨c, hc⟩
      · exact .inl (List.forall_mem_cons.mpr ⟨hb, hrest⟩)
      · exact .inr ⟨c, .inr ⟨hb, hc⟩⟩
    · exact .inr ⟨b, .inl ⟨rfl, hb⟩⟩

theorem FirstBroken.not_holds (h : FirstBroken holds clauses c) : ¬ holds c := by
  induction clauses with
  | nil => exact h.elim
  | cons b rest ih =>
    rcases h with ⟨rfl, hc⟩ | ⟨-, hc⟩
    · exact hc
    · exact ih hc

end FirstBroken

namespace Layout

variable {l : Layout} {limit total : Nat} {p q : Packet} {frame tail : Bytes} {spare : UInt8} {fault : Fault}

/-- The packet that is left of one when a frame of a layout carries it: the other routing key is cleared. -/
def borne (l : Layout) (p : Packet) : Packet :=
  match l with
  | uri => { p with id := 0 }
  | id => { p with uri := "" }

/-! ### Writing a frame -/

/-- What a packet must meet to be written, in the order in which it counts. -/
inductive Demand where
  | key
  | size
  | metadata

namespace Demand

def all : List Demand := [.key, .size, .metadata]

/-- The text key fits in one octet of length, the whole in four and in the limit, and each size of the metadata in
    two. -/
def Met (l : Layout) (limit : Nat) (p : Packet) : Demand → Prop
  | .key => l = .uri → Text.size p.uri ≤ 255
  | .size => l.frameLength p ≤ min limit 0xFFFFFFFF
  | .metadata => Metadata.Fits p.metadata.entries

def code : Demand → Code
  | .key => .marshal
  | .size => .packetSize
  | .metadata => .metadataSize

theorem mem_all (d : Demand) : d ∈ all := by cases d <;> simp [all]

end Demand

/-- The octet between the reserved octet and the session, in a frame that is written. -/
def spareOctet (l : Layout) (p : Packet) : UInt8 :=
  match l with
  | uri => UInt8.ofNat (Text.size p.uri)
  | id => 0

/-- The frame of a packet, before it is masked. -/
def written (l : Layout) (p : Packet) : Bytes :=
  l.body p (l.frameLength p) (l.spareOctet p) ++ Metadata.octets p.metadata.entries

theorem spare_of_met (key : Demand.key.Met l limit p) : l.spare p = .ok (l.spareOctet p) := by
  cases l with
  | id => rfl
  | uri => exact if_pos (Nat.lt_succ_of_le (key rfl))

theorem measure_of_met (key : Demand.key.Met l limit p) (size : Demand.size.Met l limit p) :
    l.measure limit p = .ok (l.frameLength p, l.spareOctet p) := by
  have fits : ¬ min limit largest < l.frameLength p := Nat.not_lt.mpr size
  unfold measure
  rw [spare_of_met key]
  simp only [bind, Except.bind, if_neg fits]
  rfl

theorem measure_of_long_key (key : ¬Demand.key.Met l limit p) : l.measure limit p = .error (.uriTooLong p.uri) := by
  obtain ⟨rfl, long⟩ := Classical.not_imp.mp key
  have long : ¬Text.size p.uri < 256 := fun short => long (Nat.le_of_lt_succ short)
  simp [measure, spare, uriLength, long, bind, Except.bind]

theorem measure_of_large (key : Demand.key.Met l limit p) (size : ¬Demand.size.Met l limit p) :
    l.measure limit p = .error (.packetTooLarge (l.frameLength p) (min limit largest)) := by
  have large : min limit largest < l.frameLength p := Nat.not_le.mp size
  simp [measure, spare_of_met key, large, bind, Except.bind]

theorem length_body : (l.body p total spare).length = l.headerLength + l.keyLength p + p.payload.length := by
  cases l <;> simp [body, keyOctets, keyLength, headerLength] <;> omega

theorem length_written : (l.written p).length = l.frameLength p := by
  rw [written, List.length_append, length_body, Metadata.length_octets]
  rfl

end Layout

namespace Parcel

variable {f : Framing} {p : Parcel}

open Layout (Demand)

theorem frame_of_met (met : ∀ d, Demand.Met f.layout f.limit p.toPacket d) :
    (p.frame f).2 = .ok (f.disguise (f.layout.written p.toPacket)) := by
  unfold frame Layout.framePieces
  rw [Layout.measure_of_met (met .key) (met .size)]
  dsimp only
  rw [Piece.write_ok, Metadata.write_pieces (met .metadata)]
  rfl

theorem frame_of_broken {d : Demand} (broken : FirstBroken (Demand.Met f.layout f.limit p.toPacket) Demand.all d) :
    ∃ fault, (p.frame f).2 = .error fault ∧ fault.code = d.code := by
  unfold frame Layout.framePieces
  rcases broken with ⟨rfl, key⟩ | ⟨key, ⟨rfl, size⟩ | ⟨size, ⟨rfl, metadata⟩ | ⟨-, none⟩⟩⟩
  · exact ⟨_, by rw [Layout.measure_of_long_key key], rfl⟩
  · exact ⟨_, by rw [Layout.measure_of_large key size], rfl⟩
  · obtain ⟨field, n, stop⟩ := Metadata.write_pieces_too_long metadata
    refine ⟨.metadataTooLong field n, ?_, rfl⟩
    rw [Layout.measure_of_met key size]
    dsimp only
    rw [Piece.write_ok]
    generalize Piece.write p.metadata.pieces = w at stop
    obtain ⟨bs, _⟩ := w
    subst stop
    rfl
  · exact none.elim

/-- A packet that meets every demand is written, and otherwise the first broken demand decides the code of the fault. -/
theorem frame_cases (f : Framing) (p : Parcel) :
    ((∀ d, Demand.Met f.layout f.limit p.toPacket d) ∧
      (p.frame f).2 = .ok (f.disguise (f.layout.written p.toPacket))) ∨
    ∃ d fault, FirstBroken (Demand.Met f.layout f.limit p.toPacket) Demand.all d ∧
      (p.frame f).2 = .error fault ∧ fault.code = d.code := by
  rcases hold_or_broken (Demand.Met f.layout f.limit p.toPacket) Demand.mem_all with met | ⟨d, broken⟩
  · exact .inl ⟨met, frame_of_met met⟩
  · obtain ⟨fault, refused, code⟩ := frame_of_broken broken
    exact .inr ⟨d, fault, broken, refused, code⟩

end Parcel

namespace Layout

variable {l : Layout} {limit total : Nat} {p q : Packet} {frame tail : Bytes} {spare : UInt8} {fault : Fault}

/-! ### Reading a frame -/

/-- The number of octets that a frame says its text key has. -/
def keySize (l : Layout) (frame : Bytes) : Nat :=
  match l with
  | uri => (octet frame 7).toNat
  | id => 0

/-- The number of octets that a frame says its payload has. -/
def payloadSize (frame : Bytes) : Nat := field frame 16 4

/-- Where the payload of a frame begins. -/
def keyEnd (l : Layout) (frame : Bytes) : Nat := l.headerLength + l.keySize frame

def keyPart (l : Layout) (frame : Bytes) : Bytes := (frame.drop l.headerLength).take (l.keySize frame)

def payloadPart (l : Layout) (frame : Bytes) : Bytes := (frame.drop (l.keyEnd frame)).take (payloadSize frame)

def metadataPart (l : Layout) (frame : Bytes) : Bytes := frame.drop (l.keyEnd frame + payloadSize frame)

/-- What octets must meet to be read as a frame, in the order in which it counts. -/
inductive Clause where
  | header
  | bound
  | length
  | command
  | extent
  | key
  | metadata

namespace Clause

def all : List Clause := [.header, .bound, .length, .command, .extent, .key, .metadata]

/-- The frame has a header, stays in the limit and states its own length; its command is known, its payload ends
    within it, its text key is text, and what remains is well-formed metadata. -/
def Holds (l : Layout) (limit : Nat) (frame : Bytes) : Clause → Prop
  | .header => l.headerLength ≤ frame.length
  | .bound => frame.length ≤ min limit 0xFFFFFFFF
  | .length => Bytes.toNat (frame.take 4) = frame.length
  | .command => octet frame 4 = 0 ∨ octet frame 4 = 1 ∨ octet frame 4 = 2
  | .extent => l.keyEnd frame + payloadSize frame ≤ frame.length
  | .key => l = .uri → ∃ s, Text.bytes s = l.keyPart frame
  | .metadata => ∃ entries, Metadata.Spells entries (l.metadataPart frame)

/-- The code of the fault that a broken clause gives, unless it is that of the metadata. -/
def code : Clause → Option Code
  | .header | .bound | .length | .extent => some .packetSize
  | .command => some .unexpectedCode
  | .key => some .unmarshal
  | .metadata => none

/-- The fault of reading a frame that breaks the clause. -/
def Refuses (l : Layout) (limit : Nat) (frame : Bytes) (fault : Fault) : Clause → Prop
  | .header => fault = .frameTooShort frame.length l.headerLength
  | .bound => fault = .packetTooLarge frame.length (min limit largest)
  | .length => fault = .sizeMismatch (Bytes.toNat (frame.take 4)) frame.length
  | .command => fault = .unknownCommand (octet frame 4).toNat
  | .extent => fault = .payloadOverrun (payloadSize frame) frame.length
  | .key => fault = .uriNotText
  | .metadata => Metadata.decode (l.metadataPart frame) = .error fault

theorem mem_all (c : Clause) : c ∈ all := by cases c <;> simp [all]

theorem Refuses.code {c : Clause} {code : Code} (h : c.Refuses l limit frame fault) (stated : c.code = some code) :
    fault.code = code := by
  cases c <;> cases stated <;> cases h <;> rfl

end Clause

/-- The fields of a packet are what stands in a frame. -/
structure Carries (l : Layout) (frame : Bytes) (p : Packet) : Prop where
  command : p.command.toUInt8 = octet frame 4
  flags : p.flags = octet frame 5
  reserved : p.reserved = octet frame 6
  session : p.session.toNat = field frame 8 8
  uri : l = .uri → Text.bytes p.uri = l.keyPart frame ∧ p.id = 0
  id : l = .id → p.id.toNat = field frame 20 4 ∧ p.uri = ""
  payload : p.payload = l.payloadPart frame
  metadata : ∃ entries, Metadata.Spells entries (l.metadataPart frame) ∧ p.metadata = Metadata.ofEntries entries

/-- The text key of a frame, if the layout has one. -/
def readKey (l : Layout) (frame : Bytes) : Except Fault String :=
  match l with
  | uri => readUri (l.keyPart frame)
  | id => .ok ""

theorem decode_eq : l.decode limit frame = do
    l.checkLength limit frame
    let header ← l.readHeader frame
    if frame.length < l.keyEnd frame + payloadSize frame then
      .error (.payloadOverrun (payloadSize frame) frame.length)
    let path ← l.readKey frame
    let metadata ← Metadata.decode (l.metadataPart frame)
    return { command := header.command, flags := octet frame 5, reserved := octet frame 6
             session := UInt64.ofNat (field frame 8 8), uri := path, id := header.id
             payload := l.payloadPart frame, metadata } := by
  unfold decode readHeader
  rcases l.checkLength limit frame with fault | _
  · rfl
  rcases Command.ofUInt8? (octet frame 4) with _ | command
  · rfl
  cases l <;> rfl

theorem checkLength_of_holds (header : Clause.header.Holds l limit frame) (bound : Clause.bound.Holds l limit frame)
    (length : Clause.length.Holds l limit frame) : l.checkLength limit frame = .ok () := by
  have stated : ¬ field frame 0 4 ≠ frame.length := not_not_intro length
  exact (if_neg (Nat.not_lt.mpr header)).trans ((if_neg (Nat.not_lt.mpr bound)).trans (if_neg stated))

/-- What a frame says of its numeric key. -/
def idPart (l : Layout) (frame : Bytes) : UInt32 :=
  match l with
  | uri => 0
  | id => UInt32.ofNat (field frame 20 4)

theorem readHeader_of_holds (command : Clause.command.Holds l limit frame) :
    ∃ header, l.readHeader frame = .ok header ∧ header.command.toUInt8 = octet frame 4 ∧
      header.id = l.idPart frame := by
  unfold readHeader
  rcases command with h | h | h <;> rw [h] <;> exact ⟨_, rfl, rfl, rfl⟩

theorem readHeader_of_broken (command : ¬ Clause.command.Holds l limit frame) :
    l.readHeader frame = .error (.unknownCommand (octet frame 4).toNat) := by
  simp only [Clause.Holds, not_or] at command
  obtain ⟨h0, h1, h2⟩ := command
  unfold readHeader Command.ofUInt8?
  rw [if_neg h0, if_neg h1, if_neg h2]

theorem readKey_of_holds (key : Clause.key.Holds l limit frame) :
    ∃ path, l.readKey frame = .ok path ∧ (l = .uri → Text.bytes path = l.keyPart frame) ∧ (l = .id → path = "") := by
  cases l with
  | id => exact ⟨"", rfl, nofun, fun _ => rfl⟩
  | uri =>
    obtain ⟨path, hpath⟩ := key rfl
    exact ⟨path, by simp [readKey, readUri, ← hpath], fun _ => hpath, nofun⟩

theorem readKey_of_broken (key : ¬ Clause.key.Holds l limit frame) : l.readKey frame = .error .uriNotText := by
  obtain ⟨rfl, none⟩ := Classical.not_imp.mp key
  unfold readKey readUri
  cases h : Text.ofBytes? (uri.keyPart frame) with
  | none => rfl
  | some path => exact absurd ⟨path, (Text.ofBytes?_eq_some_iff.mp h).symm⟩ none

/-- The first broken clause decides the fault. -/
theorem decode_of_broken {c : Clause} (broken : FirstBroken (Clause.Holds l limit frame) Clause.all c) :
    ∃ fault, l.decode limit frame = .error fault ∧ c.Refuses l limit frame fault := by
  -- Each clause is reached when those before it hold, so the steps before it are gone when its own step fails.
  rw [decode_eq]
  rcases broken with ⟨rfl, header⟩ | ⟨header, ⟨rfl, bound⟩ | ⟨bound, ⟨rfl, length⟩ | ⟨length, broken⟩⟩⟩
  · have checked : l.checkLength limit frame = .error (.frameTooShort frame.length l.headerLength) :=
      if_pos (Nat.lt_of_not_le header)
    exact ⟨_, by rw [checked]; rfl, rfl⟩
  · have checked : l.checkLength limit frame = .error (.packetTooLarge frame.length (min limit largest)) :=
      (if_neg (Nat.not_lt.mpr header)).trans (if_pos (Nat.lt_of_not_le bound))
    exact ⟨_, by rw [checked]; rfl, rfl⟩
  · have checked : l.checkLength limit frame = .error (.sizeMismatch (field frame 0 4) frame.length) :=
      (if_neg (Nat.not_lt.mpr header)).trans ((if_neg (Nat.not_lt.mpr bound)).trans (if_pos length))
    exact ⟨_, by rw [checked]; rfl, rfl⟩
  rw [checkLength_of_holds header bound length]
  rcases broken with ⟨rfl, command⟩ | ⟨command, broken⟩
  · rw [readHeader_of_broken command]
    exact ⟨_, rfl, rfl⟩
  obtain ⟨h, hheader, -⟩ := readHeader_of_holds command
  rw [hheader]
  rcases broken with ⟨rfl, extent⟩ | ⟨extent, broken⟩
  · exact ⟨_, if_pos (Nat.lt_of_not_le extent), rfl⟩
  simp only [if_neg (Nat.not_lt.mpr extent)]
  rcases broken with ⟨rfl, key⟩ | ⟨key, broken⟩
  · rw [readKey_of_broken key]
    exact ⟨_, rfl, rfl⟩
  obtain ⟨path, hpath, -⟩ := readKey_of_holds key
  rw [hpath]
  rcases broken with ⟨rfl, metadata⟩ | ⟨-, none⟩
  · cases hmetadata : Metadata.decode (l.metadataPart frame) with
    | error fault => exact ⟨fault, rfl, hmetadata⟩
    | ok m =>
      obtain ⟨entries, spells, -⟩ := Metadata.decode_eq_ok_iff.mp hmetadata
      exact absurd ⟨entries, spells⟩ metadata
  · exact none.elim

theorem length_take_drop {i width : Nat} (h : i + width ≤ frame.length) :
    ((frame.drop i).take width).length = width := by
  rw [List.length_take, List.length_drop]
  omega

theorem field_lt {i width : Nat} (h : i + width ≤ frame.length) : field frame i width < Bytes.span width := by
  have hlt := Bytes.toNat_lt ((frame.drop i).take width)
  rwa [length_take_drop h] at hlt

/-- A frame that meets every clause is read, and the fields of the packet are what stands in it. -/
theorem decode_of_holds (holds : ∀ c, Clause.Holds l limit frame c) :
    ∃ p, l.decode limit frame = .ok p ∧ l.Carries frame p := by
  obtain ⟨header, hheader, hcommand, hid⟩ := readHeader_of_holds (holds .command)
  obtain ⟨path, hpath, huri, hnone⟩ := readKey_of_holds (holds .key)
  obtain ⟨entries, spells⟩ := holds .metadata
  have hmetadata := Metadata.decode_eq_ok_iff.mpr ⟨entries, spells, rfl⟩
  have length : l.headerLength ≤ frame.length := holds .header
  have session : (UInt64.ofNat (field frame 8 8)).toNat = field frame 8 8 :=
    UInt64.toNat_ofNat_of_lt' (field_lt (by cases l <;> simp only [headerLength] at length <;> omega))
  refine ⟨{ command := header.command, flags := octet frame 5, reserved := octet frame 6
            session := UInt64.ofNat (field frame 8 8), uri := path, id := header.id
            payload := l.payloadPart frame, metadata := Metadata.ofEntries entries }, ?_, ?_⟩
  · rw [decode_eq, checkLength_of_holds (holds .header) (holds .bound) (holds .length), hheader, hpath, hmetadata]
    exact if_neg (Nat.not_lt.mpr (holds .extent))
  · refine ⟨hcommand, rfl, rfl, session, fun h => ⟨huri h, ?_⟩, fun h => ⟨?_, hnone h⟩, rfl, entries, spells, rfl⟩
    · subst h
      exact hid
    · subst h
      rw [hid]
      exact UInt32.toNat_ofNat_of_lt' (field_lt length)

/-! ### Frames and packets -/

theorem toUInt8_injective {c d : Command} (h : c.toUInt8 = d.toUInt8) : c = d := by
  have hc := Command.ofUInt8?_toUInt8 c
  rw [h, Command.ofUInt8?_toUInt8] at hc
  exact (Option.some.inj hc).symm

/-- A frame carries one packet at most. -/
theorem Carries.unique (hp : l.Carries frame p) (hq : l.Carries frame q) : p = q := by
  have command := toUInt8_injective (hp.command.trans hq.command.symm)
  have session := UInt64.toNat_inj.mp (hp.session.trans hq.session.symm)
  have metadata : p.metadata = q.metadata := by
    obtain ⟨a, ha, hpa⟩ := hp.metadata
    obtain ⟨b, hb, hqb⟩ := hq.metadata
    rw [hpa, hqb, ha.unique hb]
  have keys : p.uri = q.uri ∧ p.id = q.id := by
    cases l with
    | uri =>
      obtain ⟨huri, hid⟩ := hp.uri rfl
      obtain ⟨huri', hid'⟩ := hq.uri rfl
      exact ⟨Text.bytes_injective (huri.trans huri'.symm), hid.trans hid'.symm⟩
    | id =>
      obtain ⟨hid, huri⟩ := hp.id rfl
      obtain ⟨hid', huri'⟩ := hq.id rfl
      exact ⟨huri.trans huri'.symm, UInt32.toNat_inj.mp (hid.trans hid'.symm)⟩
  cases p
  cases q
  simp only [Packet.mk.injEq]
  exact ⟨command, hp.flags.trans hq.flags.symm, hp.reserved.trans hq.reserved.symm, session, keys.1, keys.2,
    hp.payload.trans hq.payload.symm, metadata⟩

/-- Octets that meet every clause are read, as the packet that they carry, and otherwise the first broken clause decides
    the fault. -/
theorem decode_cases (l : Layout) (limit : Nat) (frame : Bytes) :
    (∃ p, l.decode limit frame = .ok p ∧ (∀ c, Clause.Holds l limit frame c) ∧ l.Carries frame p) ∨
    ∃ c fault, FirstBroken (Clause.Holds l limit frame) Clause.all c ∧ l.decode limit frame = .error fault ∧
      c.Refuses l limit frame fault := by
  rcases hold_or_broken (Clause.Holds l limit frame) Clause.mem_all with holds | ⟨c, broken⟩
  · obtain ⟨p, decoded, carries⟩ := decode_of_holds holds
    exact .inl ⟨p, decoded, holds, carries⟩
  · obtain ⟨fault, refused, refuses⟩ := decode_of_broken broken
    exact .inr ⟨c, fault, broken, refused, refuses⟩

theorem decode_eq_ok_iff : l.decode limit frame = .ok p ↔ (∀ c, Clause.Holds l limit frame c) ∧ l.Carries frame p := by
  constructor
  · intro h
    rcases decode_cases l limit frame with ⟨q, decoded, found⟩ | ⟨c, fault, -, refused, -⟩
    · rw [h] at decoded
      cases decoded
      exact found
    · rw [h] at refused
      cases refused
  · rintro ⟨holds, carries⟩
    obtain ⟨q, decoded, carries'⟩ := decode_of_holds holds
    rw [decoded, carries'.unique carries]

theorem field_eq {i width n : Nat} (h : (frame.drop i).take width = Bytes.bigEndian width n) :
    field frame i width = n % Bytes.span width := by
  unfold field
  rw [h, Bytes.toNat_bigEndian]

section Composed

variable (l p total spare tail)

theorem drop_header_uri : (uri.body p total spare ++ tail).drop 20 = Text.bytes p.uri ++ (p.payload ++ tail) :=
  List.append_assoc (Text.bytes p.uri) p.payload tail

theorem drop_key : (l.body p total spare ++ tail).drop (l.headerLength + l.keyLength p) = p.payload ++ tail := by
  cases l with
  | id => rfl
  | uri => rw [headerLength, keyLength, ← List.drop_drop, drop_header_uri, ← Text.length_bytes, List.drop_left]

variable {l p spare}

theorem keyEnd_composed (stated : l = .uri → spare.toNat = Text.size p.uri) :
    l.keyEnd (l.body p total spare ++ tail) = l.headerLength + l.keyLength p := by
  cases l with
  | uri => exact congrArg (20 + ·) (stated rfl)
  | id => rfl

theorem payloadSize_composed (payload : p.payload.length < Bytes.span 4) :
    payloadSize (l.body p total spare ++ tail) = p.payload.length :=
  (field_eq rfl).trans (Nat.mod_eq_of_lt payload)

theorem metadataPart_composed (stated : l = .uri → spare.toNat = Text.size p.uri)
    (payload : p.payload.length < Bytes.span 4) : l.metadataPart (l.body p total spare ++ tail) = tail := by
  rw [metadataPart, keyEnd_composed total tail stated, payloadSize_composed total tail payload, ← List.drop_drop,
    drop_key, List.drop_left]

end Composed

/-- A frame put together from a packet and metadata entries carries that packet, with the map of these entries. -/
theorem carries_composed {entries : List MetadataEntry} (stated : l = .uri → spare.toNat = Text.size p.uri)
    (payload : p.payload.length < Bytes.span 4) (fits : Metadata.Fits entries) :
    l.Carries (l.body p total spare ++ Metadata.octets entries)
      { l.borne p with metadata := Metadata.ofEntries entries } where
  command := by cases l <;> rfl
  flags := by cases l <;> rfl
  reserved := by cases l <;> rfl
  session := by
    have session : (l.borne p).session = p.session := by cases l <;> rfl
    have small : p.session.toNat < Bytes.span 8 := p.session.toNat_lt
    rw [session, field_eq rfl, Nat.mod_eq_of_lt small]
  uri := by
    rintro rfl
    refine ⟨?_, rfl⟩
    have size : uri.keySize (uri.body p total spare ++ Metadata.octets entries) = Text.size p.uri := stated rfl
    rw [keyPart, headerLength, drop_header_uri, size, ← Text.length_bytes, List.take_left]
    rfl
  id := by
    rintro rfl
    have small : p.id.toNat < Bytes.span 4 := p.id.toNat_lt
    exact ⟨((field_eq rfl).trans (Nat.mod_eq_of_lt small)).symm, rfl⟩
  payload := by
    have same : (l.borne p).payload = p.payload := by cases l <;> rfl
    rw [same, payloadPart, keyEnd_composed total _ stated, payloadSize_composed total _ payload, drop_key, List.take_left]
  metadata := ⟨entries, ⟨fits, metadataPart_composed total _ stated payload⟩, rfl⟩

/-- Such a frame is read if it states its own length and stays in the limit. -/
theorem holds_composed {entries : List MetadataEntry} (stated : l = .uri → spare.toNat = Text.size p.uri)
    (payload : p.payload.length < Bytes.span 4) (fits : Metadata.Fits entries)
    (length : (l.body p total spare ++ Metadata.octets entries).length = total) (bound : total ≤ min limit 0xFFFFFFFF) :
    ∀ c, Clause.Holds l limit (l.body p total spare ++ Metadata.octets entries) c
  | .header => by
    rw [Clause.Holds, List.length_append, length_body]
    omega
  | .bound => length.symm ▸ bound
  | .length => by
    have small : total < Bytes.span 4 := Nat.lt_succ_of_le (Nat.le_trans bound (Nat.min_le_right ..))
    exact ((field_eq (i := 0) rfl).trans (Nat.mod_eq_of_lt small)).trans length.symm
  | .command => by
    have command : octet (l.body p total spare ++ Metadata.octets entries) 4 = p.command.toUInt8 := rfl
    rw [Clause.Holds, command]
    cases p.command <;> decide
  | .extent => by
    rw [Clause.Holds, keyEnd_composed total _ stated, payloadSize_composed total _ payload, List.length_append,
      length_body]
    exact Nat.le_add_right ..
  | .key => by
    rintro rfl
    exact ⟨p.uri, ((carries_composed stated payload fits).uri rfl).1⟩
  | .metadata => ⟨entries, fits, metadataPart_composed total _ stated payload⟩

theorem decode_composed {entries : List MetadataEntry} (stated : l = .uri → spare.toNat = Text.size p.uri)
    (payload : p.payload.length < Bytes.span 4) (fits : Metadata.Fits entries)
    (length : (l.body p total spare ++ Metadata.octets entries).length = total) (bound : total ≤ min limit 0xFFFFFFFF) :
    l.decode limit (l.body p total spare ++ Metadata.octets entries) =
      .ok { l.borne p with metadata := Metadata.ofEntries entries } :=
  decode_eq_ok_iff.mpr ⟨holds_composed stated payload fits length bound, carries_composed stated payload fits⟩

theorem drop_eq_octet {i : Nat} (h : i < frame.length) : frame.drop i = octet frame i :: frame.drop (i + 1) := by
  rw [List.drop_eq_getElem_cons h, octet, List.getD_eq_getElem?_getD, List.getElem?_eq_getElem h, Option.getD_some]

theorem drop_eq_field {i width : Nat} (h : i + width ≤ frame.length) :
    frame.drop i = Bytes.bigEndian width (field frame i width) ++ frame.drop (i + width) := by
  have hfield := Bytes.bigEndian_toNat ((frame.drop i).take width)
  rw [length_take_drop h] at hfield
  rw [field, hfield, ← List.drop_drop, List.take_append_drop]

theorem eq_header_append (long : 20 ≤ frame.length) :
    frame = Bytes.bigEndian 4 (field frame 0 4) ++ (octet frame 4 :: octet frame 5 :: octet frame 6 :: octet frame 7 ::
      (Bytes.bigEndian 8 (field frame 8 8) ++ (Bytes.bigEndian 4 (field frame 16 4) ++ frame.drop 20))) := by
  have h0 : frame = Bytes.bigEndian 4 (field frame 0 4) ++ frame.drop 4 := drop_eq_field (i := 0) (by omega)
  have h4 : frame.drop 4 = octet frame 4 :: octet frame 5 :: octet frame 6 :: octet frame 7 :: frame.drop 8 := by
    rw [drop_eq_octet (by omega), drop_eq_octet (by omega), drop_eq_octet (by omega), drop_eq_octet (by omega)]
  have h8 : frame.drop 8 = Bytes.bigEndian 8 (field frame 8 8) ++ frame.drop 16 := drop_eq_field (by omega)
  have h16 : frame.drop 16 = Bytes.bigEndian 4 (field frame 16 4) ++ frame.drop 20 := drop_eq_field (by omega)
  rw [h16] at h8
  rw [h8] at h4
  rw [h4] at h0
  exact h0

/-- A frame that is read is put together again from its packet, its spare octet and its metadata. -/
theorem Carries.compose (holds : ∀ c, Clause.Holds l limit frame c) (carries : l.Carries frame p) :
    frame = l.body p frame.length (octet frame 7) ++ l.metadataPart frame := by
  have header : l.headerLength ≤ frame.length := holds .header
  have extent : l.keyEnd frame + payloadSize frame ≤ frame.length := holds .extent
  have long : 20 ≤ frame.length := by cases l <;> simp only [headerLength] at header <;> omega
  have length : field frame 0 4 = frame.length := holds .length
  have payload : p.payload.length = field frame 16 4 := by
    rw [carries.payload, payloadPart, List.length_take, List.length_drop]
    exact Nat.min_eq_left (by omega)
  have key : frame.drop 20 = l.keyOctets p ++ frame.drop (l.keyEnd frame) := by
    cases l with
    | uri =>
      rw [keyOctets, (carries.uri rfl).1, keyPart, keyEnd, ← List.drop_drop, headerLength, List.take_append_drop]
    | id => rw [keyOctets, (carries.id rfl).1]; exact drop_eq_field header
  have rest : frame.drop (l.keyEnd frame) = p.payload ++ l.metadataPart frame := by
    rw [carries.payload, payloadPart, metadataPart, ← List.drop_drop, List.take_append_drop]
  -- The fixed part of the frame, with each of its numbers replaced by the field of the packet that it stands for.
  have whole := eq_header_append long
  rw [length, key, rest, ← carries.command, ← carries.flags, ← carries.reserved, ← carries.session, ← payload] at whole
  exact whole.trans (by simp [body])

end Layout
end Switchboard
