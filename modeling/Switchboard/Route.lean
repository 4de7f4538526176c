import Switchboard.Text.Quoted

/-! What a packet is for and where it goes. -/

namespace Switchboard

/-- What a packet is for: a one-way notice, a request that expects a response, or a response. -/
inductive Command where
  | notify
  | request
  | response
  deriving DecidableEq, Repr, Inhabited

namespace Command

def toUInt8 : Command → UInt8
  | notify => 0
  | request => 1
  | response => 2

def ofUInt8? (n : UInt8) : Option Command :=
  if n = 0 then some notify else if n = 1 then some request else if n = 2 then some response else none

def name : Command → String
  | notify => "Notify"
  | request => "Request"
  | response => "Response"

@[simp] theorem ofUInt8?_toUInt8 (c : Command) : ofUInt8? c.toUInt8 = some c := by cases c <;> rfl

end Command

/-- The key a packet is routed by: a text, or a number other than 0. -/
inductive Route where
  | uri (path : String)
  | id (number : UInt32)
  deriving DecidableEq, Repr

def Route.text : Route → String
  | .uri path => "Uri(" ++ Text.quoted path ++ ")"
  | .id number => "Id(" ++ toString number.toNat ++ ")"

end Switchboard
