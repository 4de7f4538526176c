import Switchboard.Route
import Switchboard.Duration

/-! Why an operation failed. A `Fault` names the cause; its `code` is the closed classification that
    travels on the wire and `message` the description for the reader of a diagnostic. -/

namespace Switchboard

/-- The closed classification of failures; its numbers are part of the wire format. -/
inductive Code where
  | unknown
  | marshal
  | unmarshal
  | notSupported
  | timeout
  | packetSize
  | unexpectedCode
  | sessionClosed
  | invalidErrorPayload
  | routeNotFound
  | routeConflict
  | metadataSize
  deriving DecidableEq, Repr

namespace Code

/-- The codes in the order of their numbers. -/
def all : List Code :=
  [unknown, marshal, unmarshal, notSupported, timeout, packetSize, unexpectedCode, sessionClosed,
    invalidErrorPayload, routeNotFound, routeConflict, metadataSize]

def toNat : Code → Nat
  | unknown => 0
  | marshal => 1
  | unmarshal => 2
  | notSupported => 3
  | timeout => 4
  | packetSize => 5
  | unexpectedCode => 6
  | sessionClosed => 7
  | invalidErrorPayload => 8
  | routeNotFound => 9
  | routeConflict => 10
  | metadataSize => 11

def ofNat? (n : Nat) : Option Code := all[n]?

def name : Code → String
  | unknown => "Unknown"
  | marshal => "Marshal"
  | unmarshal => "Unmarshal"
  | notSupported => "NotSupported"
  | timeout => "Timeout"
  | packetSize => "PacketSize"
  | unexpectedCode => "UnexpectedCode"
  | sessionClosed => "SessionClosed"
  | invalidErrorPayload => "InvalidErrorPayload"
  | routeNotFound => "RouteNotFound"
  | routeConflict => "RouteConflict"
  | metadataSize => "MetadataSize"

/-- The stable label of a code in log fields. -/
def label : Code → String
  | unknown => "spark.rpc.unknown"
  | marshal => "spark.rpc.marshal_failed"
  | unmarshal => "spark.rpc.unmarshal_failed"
  | notSupported => "spark.rpc.not_supported"
  | timeout => "spark.rpc.timeout"
  | packetSize => "spark.rpc.packet_size"
  | unexpectedCode => "spark.rpc.unexpected_code"
  | sessionClosed => "spark.rpc.session_closed"
  | invalidErrorPayload => "spark.rpc.invalid_error_payload"
  | routeNotFound => "spark.rpc.route_not_found"
  | routeConflict => "spark.rpc.route_conflict"
  | metadataSize => "spark.rpc.metadata_size"

/-- The caller got no reply: the wait ran out or the connection was closed. -/
def isTimeoutClass : Code → Bool
  | timeout | sessionClosed => true
  | _ => false

@[simp] theorem ofNat?_toNat (c : Code) : ofNat? c.toNat = some c := by cases c <;> rfl

theorem toNat_of_ofNat? {n : Nat} {c : Code} (h : ofNat? n = some c) : c.toNat = n := by
  obtain ⟨hn, rfl⟩ := List.getElem?_eq_some_iff.mp h
  simp only [all, List.length_cons, List.length_nil] at hn
  match n, hn with
  | 0, _ | 1, _ | 2, _ | 3, _ | 4, _ | 5, _ | 6, _ | 7, _ | 8, _ | 9, _ | 10, _ | 11, _ => rfl

end Code

/-- The parts of a metadata map whose size a frame records in two octets. -/
inductive MetadataField where
  | key
  | count
  | value
  deriving DecidableEq, Repr

def MetadataField.name : MetadataField → String
  | .key => "metadata key"
  | .count => "metadata value count"
  | .value => "metadata value"

inductive Fault where
  /-- A failure in someone's own words, such as one that a peer reports. -/
  | stated (code : Code) (message : String) (cause : Option String)
  | uriTooLong (uri : String)
  | packetTooLarge (size limit : Nat)
  | frameTooShort (size header : Nat)
  | sizeMismatch (declared actual : Nat)
  | unknownCommand (value : Nat)
  | payloadOverrun (payload frame : Nat)
  | uriNotText
  | metadataTooLong (field : MetadataField) (length : Nat)
  | metadataTruncated
  | metadataNotText
  | jsonUnencodable
  | jsonMalformed
  | protobufMalformed
  | errorTooShort (size : Nat)
  | errorCodeUnknown (value : Nat)
  | errorNotText
  | idReserved
  | routeTaken (route : Route)
  | noRoute (uri : String) (id : UInt32)
  | cannotRespond (command : Command)
  | contextUnbound
  | notSent (route : Route)
  | notAnswered (route : Route)
  | callTimedOut (route : Route) (limit : Duration)
  | waitTimedOut (limit : Duration)
  | closedWaiting
  | noRuntime
  | keyEmpty
  | settingsMalformed
  deriving DecidableEq, Repr

namespace Fault

def code : Fault → Code
  | stated code _ _ => code
  | uriTooLong _ | jsonUnencodable => .marshal
  | packetTooLarge .. | frameTooShort .. | sizeMismatch .. | payloadOverrun .. => .packetSize
  | uriNotText | metadataNotText | jsonMalformed | protobufMalformed => .unmarshal
  | metadataTooLong .. | metadataTruncated => .metadataSize
  | errorTooShort _ | errorCodeUnknown _ | errorNotText => .invalidErrorPayload
  | unknownCommand _ | idReserved | contextUnbound | noRuntime | keyEmpty | settingsMalformed =>
    .unexpectedCode
  | routeTaken _ => .routeConflict
  | noRoute .. => .routeNotFound
  | cannotRespond _ => .notSupported
  | notSent _ | notAnswered _ | closedWaiting => .sessionClosed
  | callTimedOut .. | waitTimedOut _ => .timeout

def message : Fault → String
  | stated _ message _ => message
  | uriTooLong uri => s!"uri \x60{uri}\x60 longer than 255 bytes"
  | packetTooLarge size limit => s!"packet of {size} bytes exceeds limit {limit}"
  | frameTooShort size header => s!"frame of {size} bytes is shorter than header {header}"
  | sizeMismatch declared actual =>
    s!"declared size {declared} does not match frame length {actual}"
  | unknownCommand value => s!"unknown packet cmd {value}"
  | payloadOverrun payload frame => s!"payload of {payload} bytes overruns frame of {frame}"
  | uriNotText => "uri is not valid utf-8"
  | metadataTooLong field length => s!"{field.name} length {length} exceeds 65535"
  | metadataTruncated => "metadata truncated"
  | metadataNotText => "metadata is not valid utf-8"
  | jsonUnencodable => "json encode failed"
  | jsonMalformed => "json decode failed"
  | protobufMalformed => "protobuf decode failed"
  | errorTooShort size => s!"error payload of {size} bytes is too short"
  | errorCodeUnknown value => s!"unknown error code {value}"
  | errorNotText => "error message is not valid utf-8"
  | idReserved => "msg id 0 is reserved for packets without a numeric route"
  | routeTaken route => s!"route {route.text} is already registered"
  | noRoute uri id => s!"no handler for uri \x60{uri}\x60 / msg id {id.toNat}"
  | cannotRespond command => s!"cannot respond to a {command.name} packet"
  | contextUnbound => "context has no protocol bound"
  | notSent route => s!"connection closed, {route.text} not sent"
  | notAnswered route => s!"connection closed before reply to {route.text}"
  | callTimedOut route limit => s!"call {route.text} timed out after {limit.text}"
  | waitTimedOut limit => s!"async call timed out after {limit.text}"
  | closedWaiting => "connection closed before reply"
  | noRuntime => "async_call with a timeout needs a tokio runtime or a custom spawner"
  | keyEmpty => "xor encoder requires a non-empty key"
  | settingsMalformed => "invalid rpc settings"

/-- Another failure lies beneath this one. -/
def hasCause : Fault → Bool
  | stated _ _ cause => cause.isSome
  | uriNotText | metadataNotText | jsonUnencodable | jsonMalformed | protobufMalformed
  | errorNotText | noRuntime | settingsMalformed => true
  | _ => false

/-- One line on a failure: its label and its description. -/
def display (f : Fault) : String := s!"[{f.code.label}] {f.message}"

/-- All about a failure, with the cause in its own words. -/
def describe (f : Fault) : String :=
  let cause := match f with
    | stated _ _ (some cause) => ", cause: " ++ cause
    | _ => ""
  "RpcError \x7b code: " ++ f.code.name ++ ", message: " ++ Text.quoted f.message ++ cause ++ " \x7d"

end Fault

/-- A result that is known to be there. -/
theorem eq_ok_of_toOption {ε α : Type} {x : Except ε α} {a : α} (h : x.toOption = some a) : x = .ok a := by
  cases x with
  | error e => cases h
  | ok b => exact congrArg Except.ok (Option.some.inj h)

end Switchboard
