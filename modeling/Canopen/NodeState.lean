/-!
# States of a node and the commands that change them

Network management (NMT) of CiA 301. A client only observes a node's state; the guard
`NodeState.allows` tells before anything is sent whether a command can be meant for a node in the
state last observed.
-/
namespace Canopen

inductive NodeState where
  | initializing
  | preOperational
  | operational
  | stopped
  deriving DecidableEq, Repr, Inhabited

inductive NodeCommand where
  | start
  | stop
  | enterPreOperational
  | reset
  | resetCommunication
  deriving DecidableEq, Repr

namespace NodeState

/-- The code of a state in heartbeats. -/
def code : NodeState → UInt8
  | initializing => 0x00
  | preOperational => 0x7F
  | operational => 0x05
  | stopped => 0x04

def ofCode? (code : UInt8) : Option NodeState :=
  match code.toNat with
  | 0x00 => some initializing
  | 0x7F => some preOperational
  | 0x05 => some operational
  | 0x04 => some stopped
  | _ => none

def text : NodeState → String
  | initializing => "initializing"
  | preOperational => "pre-operational"
  | operational => "operational"
  | stopped => "stopped"

/-- The name of a state as a word of its own. -/
def name : NodeState → String
  | initializing => "Initializing"
  | preOperational => "PreOperational"
  | operational => "Operational"
  | stopped => "Stopped"

/-- Holds where a node can go from one state to another. -/
def canBecome : NodeState → NodeState → Bool
  | _, initializing => true
  | initializing, preOperational => true
  | preOperational, operational => true
  | preOperational, stopped => true
  | operational, preOperational => true
  | operational, stopped => true
  | stopped, preOperational => true
  | _, _ => false

@[simp] theorem ofCode?_code (s : NodeState) : ofCode? s.code = some s := by cases s <;> rfl

end NodeState

namespace NodeCommand

def code : NodeCommand → UInt8
  | start => 0x01
  | stop => 0x02
  | enterPreOperational => 0x80
  | reset => 0x81
  | resetCommunication => 0x82

def ofCode? (code : UInt8) : Option NodeCommand :=
  match code.toNat with
  | 0x01 => some start
  | 0x02 => some stop
  | 0x80 => some enterPreOperational
  | 0x81 => some reset
  | 0x82 => some resetCommunication
  | _ => none

/-- The state a command drives a node into; both resets pass on to pre-operational from there. -/
def target : NodeCommand → NodeState
  | start => .operational
  | stop => .stopped
  | enterPreOperational => .preOperational
  | reset | resetCommunication => .initializing

/-- Holds of the commands that start a node anew. -/
def isReset : NodeCommand → Bool
  | reset | resetCommunication => true
  | _ => false

def text : NodeCommand → String
  | start => "start"
  | stop => "stop"
  | enterPreOperational => "pre-operational"
  | reset => "reset"
  | resetCommunication => "reset-communication"

/-- The form in which names are compared: lower case for the letters A to Z, and a hyphen for an
underscore. -/
def normalized (s : String) : String :=
  String.ofList (s.toList.map fun c => if c = '_' then '-' else c.toLower)

/-- Reads a normalized name. -/
def ofName? : String → Option NodeCommand
  | "start" | "operational" => some start
  | "stop" | "stopped" => some stop
  | "pre-operational" | "preoperational" | "preop" => some enterPreOperational
  | "reset" | "reset-node" => some reset
  | "reset-communication" | "reset-comm" => some resetCommunication
  | _ => none

@[simp] theorem ofCode?_code (c : NodeCommand) : ofCode? c.code = some c := by cases c <;> rfl

end NodeCommand

/-- Holds where a command can be meant for a node in a state. A command for the state it is in
already is allowed. -/
def NodeState.allows (s : NodeState) (c : NodeCommand) : Bool :=
  s = c.target || s.canBecome c.target

end Canopen
