import Switchboard.Context
import Switchboard.Frame.Framing
import Switchboard.Toml.Parser

/-! The settings of a connection as a host writes them down. Each may be left out; what is not a setting
    is refused. -/

namespace Switchboard

structure Settings where
  layout : Layout := .uri
  limit : Nat := Layout.defaultLimit
  /-- How long a call waits, in milliseconds; without it a call waits for ever. -/
  timeout : Option Nat := none
  key : Option String := none
  packets : Nat := 1024
  contexts : Nat := 256
  deriving DecidableEq

namespace Settings

/-- The layout that a setting names: by a string, or as the only key of a table, with an empty value. -/
def readLayout (value : Toml) : Option Layout :=
  match value with
  | .string s => named s
  | .table _ [(name, inside)] => if isVoid inside then named name else none
  | _ => none
where
  named (s : String) : Option Layout :=
    if s = "uri" then some .uri else if s = "msg_id" then some .id else none
  isVoid : Toml → Bool
    | .array items => items.isEmpty
    | .table _ entries => entries.isEmpty
    | .tables items => items.isEmpty
    | _ => false

def readCount : Toml → Option Nat
  | .integer n => if 0 ≤ n then some n.toNat else none
  | _ => none

def readText : Toml → Option String
  | .string s => some s
  | _ => none

def set (s : Settings) (entry : String × Toml) : Option Settings :=
  match entry.1 with
  | "layout" => (readLayout entry.2).map fun layout => { s with layout }
  | "max_packet_size" => (readCount entry.2).map fun limit => { s with limit }
  | "call_timeout_ms" => (readCount entry.2).map fun n => { s with timeout := some n }
  | "obfuscation_key" => (readText entry.2).map fun key => { s with key := some key }
  | "packet_pool_capacity" => (readCount entry.2).map fun packets => { s with packets }
  | "context_pool_capacity" => (readCount entry.2).map fun contexts => { s with contexts }
  | _ => none

def parse (text : String) : Except Fault Settings :=
  match (Toml.parse? text).bind fun entries => entries.foldlM set {} with
  | some s => .ok s
  | none => .error .settingsMalformed

def callTimeout (s : Settings) : Option Duration := s.timeout.map .ofMilliseconds

/-- How the frames of a connection with these settings are written. -/
def framing (s : Settings) : Except Fault Framing :=
  match s.key with
  | none => .ok { layout := s.layout, limit := s.limit }
  | some key => (Mask.ofKey (Text.bytes key)).map fun mask => { layout := s.layout, limit := s.limit, mask }

end Settings
end Switchboard
