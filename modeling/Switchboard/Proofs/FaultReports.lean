import Switchboard.Packet.Content

/-! Which payloads report a fault. Each code and message has one payload, and whoever decodes it has them again. Every
    other payload has a defect: it is too short for a code, its code is unknown, or its message is no text. The first
    defect decides which fault the payload is taken for. -/

namespace Switchboard

theorem Code.ofNat?_eq_none_iff {n : Nat} : Code.ofNat? n = none ↔ ∀ code : Code, n ≠ code.toNat := by
  constructor
  · rintro unknown code rfl
    cases unknown.symm.trans (Code.ofNat?_toNat code)
  · intro strange
    cases found : Code.ofNat? n with
    | none => rfl
    | some code => exact absurd (Code.toNat_of_ofNat? found).symm (strange code)

theorem Bytes.number_of_le {width : Nat} {bs : Bytes} (enough : width ≤ bs.length) :
    Bytes.number width bs = some (Bytes.toNat (bs.take width), bs.drop width) := by
  have cut : Bytes.cut width bs = some (bs.take width, bs.drop width) :=
    Bytes.cut_eq_some_iff.mpr ⟨(List.take_append_drop width bs).symm, List.length_take_of_le enough⟩
  rw [Bytes.number, cut]
  rfl

namespace Content

/-- What is wrong with a payload that reports no fault. -/
inductive Defect where
  | short
  | unknown
  | illegible

namespace Defect

/-- A payload has a defect, and none of those that are looked for before. -/
def Of (bs : Bytes) : Defect → Prop
  | short => bs.length < 2
  | unknown => 2 ≤ bs.length ∧ ∀ code : Code, Bytes.toNat (bs.take 2) ≠ code.toNat
  | illegible => 2 ≤ bs.length ∧ (∃ code : Code, Bytes.toNat (bs.take 2) = code.toNat) ∧
    ∀ message, bs.drop 2 ≠ Text.bytes message

/-- What a payload with a defect is taken for. -/
def fault (bs : Bytes) : Defect → Fault
  | short => .errorTooShort bs.length
  | unknown => .errorCodeUnknown (Bytes.toNat (bs.take 2))
  | illegible => .errorNotText

variable {bs : Bytes} {d : Defect}

theorem code_fault (bs : Bytes) (d : Defect) : (d.fault bs).code = .invalidErrorPayload := by
  cases d <;> rfl

theorem hasCause_fault : (d.fault bs).hasCause = true ↔ d = .illegible := by
  cases d <;> simp [fault, Fault.hasCause]

theorem Of.decodeFault (defective : d.Of bs) : decodeFault bs = d.fault bs := by
  unfold Content.decodeFault
  cases d with
  | short =>
    have few : Bytes.cut 2 bs = none := Bytes.cut_eq_none_iff.mpr defective
    rw [Bytes.number, few]
    rfl
  | unknown =>
    obtain ⟨enough, strange⟩ := defective
    rw [Bytes.number_of_le enough]
    dsimp only
    rw [Code.ofNat?_eq_none_iff.mpr strange]
    rfl
  | illegible =>
    obtain ⟨enough, ⟨code, known⟩, noText⟩ := defective
    have unread : Text.ofBytes? (bs.drop 2) = none := Option.eq_none_iff_forall_ne_some.mpr fun message read =>
      noText message (Text.ofBytes?_eq_some_iff.mp read)
    rw [Bytes.number_of_le enough]
    dsimp only
    rw [known, Code.ofNat?_toNat]
    dsimp only
    rw [unread]
    rfl

end Defect

/-- A payload reports one fault and no other, and it is decoded as that fault. -/
structure Reports (bs : Bytes) (code : Code) (message : String) : Prop where
  written : encodeFault code message = bs
  only : ∀ code' message', encodeFault code' message' = bs → code' = code ∧ message' = message
  decoded : decodeFault bs = .stated code message none

/-- A payload with a defect reports no fault, and it is decoded as a fault of its own, which has a cause if the message
    is no text. -/
structure Misreports (bs : Bytes) (d : Defect) : Prop where
  defective : d.Of bs
  unwritten : ∀ code message, encodeFault code message ≠ bs
  decoded : decodeFault bs = d.fault bs
  code : (decodeFault bs).code = .invalidErrorPayload
  cause : (decodeFault bs).hasCause = true ↔ d = .illegible

variable {bs : Bytes} {code code' : Code} {message message' : String} {d : Defect}

theorem encodeFault_injective (same : encodeFault code' message' = encodeFault code message) :
    code' = code ∧ message' = message := by
  have decoded := congrArg decodeFault same
  rw [decodeFault_encodeFault, decodeFault_encodeFault] at decoded
  cases decoded
  exact ⟨rfl, rfl⟩

theorem reports_encodeFault (code : Code) (message : String) : Reports (encodeFault code message) code message where
  written := rfl
  only _ _ same := encodeFault_injective same
  decoded := decodeFault_encodeFault code message

theorem Defect.Of.misreports (defective : d.Of bs) : Misreports bs d where
  defective := defective
  unwritten code message written := by
    have decoded := defective.decodeFault
    rw [← written, decodeFault_encodeFault] at decoded
    cases d <;> cases decoded
  decoded := defective.decodeFault
  code := by rw [defective.decodeFault, code_fault]
  cause := by rw [defective.decodeFault, hasCause_fault]

/-- Octets that are a known code and then a text are the report with that code and message. -/
theorem encodeFault_of_parts (enough : 2 ≤ bs.length) (known : Bytes.toNat (bs.take 2) = code.toNat)
    (text : bs.drop 2 = Text.bytes message) : encodeFault code message = bs := by
  have width : (bs.take 2).length = 2 := List.length_take_of_le enough
  calc encodeFault code message
      = Bytes.bigEndian (bs.take 2).length (Bytes.toNat (bs.take 2)) ++ bs.drop 2 := by
        rw [width, known, text, encodeFault]
    _ = bs := by rw [Bytes.bigEndian_toNat, List.take_append_drop]

theorem written_or_defective (bs : Bytes) :
    (∃ code message, encodeFault code message = bs) ∨ ∃ d : Defect, d.Of bs := by
  -- The defects in the order in which they are looked for.
  by_cases enough : 2 ≤ bs.length
  · by_cases known : ∃ code : Code, Bytes.toNat (bs.take 2) = code.toNat
    · by_cases text : ∃ message, bs.drop 2 = Text.bytes message
      · obtain ⟨code, known⟩ := known
        obtain ⟨message, text⟩ := text
        exact .inl ⟨code, message, encodeFault_of_parts enough known text⟩
      · exact .inr ⟨.illegible, enough, known, not_exists.mp text⟩
    · exact .inr ⟨.unknown, enough, not_exists.mp known⟩
  · exact .inr ⟨.short, Nat.lt_of_not_le enough⟩

/-- The payload of a fault is decoded as that fault, with its code and message and without a cause. A payload either
    reports one fault, so that it is written again from what it is decoded as, or it has a defect and is decoded as a
    fault of its own. -/
theorem payloads_report_one_fault_or_are_defective :
    (∀ code message, Reports (encodeFault code message) code message) ∧
    ∀ bs, ((∃ code message, Reports bs code message) ∧ ∀ d : Defect, ¬d.Of bs) ∨ ∃ d, Misreports bs d := by
  refine ⟨reports_encodeFault, fun bs => ?_⟩
  rcases written_or_defective bs with ⟨code, message, rfl⟩ | ⟨d, defective⟩
  · exact .inl ⟨⟨code, message, reports_encodeFault code message⟩, fun d defective =>
      defective.misreports.unwritten code message rfl⟩
  · exact .inr ⟨d, defective.misreports⟩

/-- The code that defects have can be reported as well, and then it has no cause. -/
example : decodeFault [0, 8, 0x61] = .stated .invalidErrorPayload "a" none ∧
    decodeFault [0, 12, 0x61] = .errorCodeUnknown 12 ∧ decodeFault [0, 8, 0xC3] = .errorNotText := by decide +kernel

end Content
end Switchboard
