import Switchboard.Metadata.Basic
import Switchboard.Writing

/-! Metadata in octets: for each key in order a two-octet key length, a two-octet value count, the key,
    and each value after its two-octet length. The empty map is no octets. -/

namespace Switchboard
namespace Metadata

/-! ### Writing -/

/-- The number of octets of one key in writing with its values. -/
def entrySize (e : MetadataEntry) : Nat :=
  e.2.foldr (fun value n => 2 + Text.size value + n) (4 + Text.size e.1)

/-- The number of octets of a map in writing, whether or not its sizes fit. -/
def encodedSize (m : Metadata) : Nat := m.entries.foldr (fun e n => entrySize e + n) 0

/-- A size in two octets, if it fits. -/
def sizePiece (field : MetadataField) (n : Nat) : Piece :=
  if n < 65536 then .ok (Bytes.bigEndian 2 n) else .error (.metadataTooLong field n)

def valuePieces (value : String) : List Piece :=
  [sizePiece .value (Text.size value), .ok (Text.bytes value)]

def entryPieces (e : MetadataEntry) : List Piece :=
  sizePiece .key (Text.size e.1) :: sizePiece .count e.2.length :: .ok (Text.bytes e.1) ::
    e.2.flatMap valuePieces

def pieces (m : Metadata) : List Piece := m.entries.flatMap entryPieces

/-- Writes a map after `out`; what is written before a size that does not fit stays. -/
def encodeOnto (m : Metadata) (out : Bytes) : Bytes × Except Fault Unit :=
  Piece.write (.ok out :: m.pieces)

def encode (m : Metadata) : Except Fault Bytes := Piece.all m.pieces

/-! ### Reading -/

def readSize (bs : Bytes) : Except Fault (Nat × Bytes) :=
  match Bytes.number 2 bs with
  | some (n, rest) => .ok (n, rest)
  | none => .error .metadataTruncated

/-- A text of `n` octets, and what follows it. -/
def readText (n : Nat) (bs : Bytes) : Except Fault (String × Bytes) :=
  match Bytes.cut n bs with
  | none => .error .metadataTruncated
  | some (head, rest) =>
    match Text.ofBytes? head with
    | some s => .ok (s, rest)
    | none => .error .metadataNotText

/-- `count` values, and what follows them; `done` are those before them, last first. -/
def readValues : Nat → Bytes → List String → Except Fault (List String × Bytes)
  | 0, bs, done => .ok (done.reverse, bs)
  | count + 1, bs, done => do
    let (n, bs) ← readSize bs
    let (value, bs) ← readText n bs
    readValues count bs (value :: done)

def readEntry (bs : Bytes) : Except Fault (MetadataEntry × Bytes) := do
  let (keySize, bs) ← readSize bs
  let (count, bs) ← readSize bs
  let (key, bs) ← readText keySize bs
  let (values, bs) ← readValues count bs []
  return ((key, values), bs)

theorem length_of_readSize {bs rest : Bytes} {n : Nat} (h : readSize bs = .ok (n, rest)) :
    bs.length = 2 + rest.length := by
  unfold readSize at h
  split at h
  · rename_i hnum
    cases h
    exact Bytes.length_of_number hnum
  · cases h

theorem length_of_readText {bs rest : Bytes} {n : Nat} {s : String} (h : readText n bs = .ok (s, rest)) :
    bs.length = n + rest.length := by
  unfold readText at h
  split at h
  · cases h
  · rename_i hcut
    obtain ⟨rfl, hlen⟩ := Bytes.cut_eq_some_iff.mp hcut
    split at h
    · cases h
      simp [hlen]
    · cases h

theorem length_of_readValues {count : Nat} {bs rest : Bytes} {done values : List String}
    (h : readValues count bs done = .ok (values, rest)) : rest.length ≤ bs.length := by
  induction count generalizing bs done with
  | zero =>
    cases h
    exact Nat.le_refl _
  | succ count ih =>
    unfold readValues at h
    cases hsize : readSize bs with
    | error e => simp [hsize, bind, Except.bind] at h
    | ok p =>
      obtain ⟨n, afterSize⟩ := p
      cases htext : readText n afterSize with
      | error e => simp [hsize, htext, bind, Except.bind] at h
      | ok q =>
        obtain ⟨value, afterText⟩ := q
        simp only [hsize, htext, bind, Except.bind] at h
        have := ih h
        have := length_of_readSize hsize
        have := length_of_readText htext
        omega

/-- An entry takes up octets. -/
theorem length_of_readEntry {bs rest : Bytes} {e : MetadataEntry} (h : readEntry bs = .ok (e, rest)) :
    rest.length < bs.length := by
  unfold readEntry at h
  cases hkey : readSize bs with
  | error f => simp [hkey, bind, Except.bind] at h
  | ok p =>
    obtain ⟨keySize, bs₁⟩ := p
    cases hcount : readSize bs₁ with
    | error f => simp [hkey, hcount, bind, Except.bind] at h
    | ok q =>
      obtain ⟨count, bs₂⟩ := q
      cases htext : readText keySize bs₂ with
      | error f => simp [hkey, hcount, htext, bind, Except.bind] at h
      | ok r =>
        obtain ⟨key, bs₃⟩ := r
        cases hvalues : readValues count bs₃ [] with
        | error f => simp [hkey, hcount, htext, hvalues, bind, Except.bind] at h
        | ok s =>
          obtain ⟨values, bs₄⟩ := s
          simp only [hkey, hcount, htext, hvalues, bind, Except.bind, pure, Except.pure] at h
          cases h
          have := length_of_readSize hkey
          have := length_of_readSize hcount
          have := length_of_readText htext
          have := length_of_readValues hvalues
          omega

/-- The entries up to the end, in the order they are written; `done` are those before, last first. -/
def readEntries (bs : Bytes) (done : List MetadataEntry) : Except Fault (List MetadataEntry) :=
  if bs.isEmpty then .ok done.reverse
  else
    match h : readEntry bs with
    | .ok (e, rest) =>
      have := length_of_readEntry h
      readEntries rest (e :: done)
    | .error fault => .error fault
termination_by bs.length

/-- The map that some octets stand for; of a repeated key the last entry counts. -/
def decode (bs : Bytes) : Except Fault Metadata := (readEntries bs []).map ofEntries

/-- Reads octets into a map, which stays as it is when they are malformed. -/
def decodeInto (m : Metadata) (bs : Bytes) : Metadata × Except Fault Unit :=
  match decode bs with
  | .ok m' => (m', .ok ())
  | .error fault => (m, .error fault)

end Metadata
end Switchboard
