import Canopen.Duration
import Canopen.Text.Hex
/-!
# Errors of a link

What can go wrong between a client and the daemon. None of it says anything about a node.
-/
namespace Canopen

open Canopen.Text

/-- The kinds of replies whose payload has a least length. -/
inductive ReplyPart where
  | state
  | nodeList
  | abort
  deriving DecidableEq, Repr

def ReplyPart.name : ReplyPart → String
  | .state => "state"
  | .nodeList => "node list"
  | .abort => "abort"

inductive FrameFault where
  | shortBody (length : Nat)
  | badLength (length : Nat)
  | shortReply (part : ReplyPart)
  | unknownReply (id : UInt8)
  | badEvent (id : UInt8) (length : Nat)
  | tooManyNodes (count : Nat)
  | badReply (sequence : UInt16)
  | reported (detail : String)
  deriving DecidableEq, Repr

def FrameFault.message : FrameFault → String
  | .shortBody length => s!"frame body too short: {length} bytes"
  | .badLength length => s!"invalid frame length {length}"
  | .shortReply part => s!"{part.name} response payload too short"
  | .unknownReply id => s!"unexpected response id 0x{Hex.padded 2 id.toNat}"
  | .badEvent id length => s!"malformed event 0x{Hex.padded 2 id.toNat} ({length} bytes)"
  | .tooManyNodes count => s!"{count} node ids do not fit a node list"
  | .badReply sequence => s!"malformed response to seq {sequence.toNat}"
  | .reported detail => detail

inductive Silence where
  | node (limit : Duration)
  | reply (sequence : UInt16) (limit : Duration)
  | connection (place : String)
  | reported (detail : String)
  deriving DecidableEq, Repr

def Silence.message : Silence → String
  | .node limit => s!"no response from node within {limit.text}"
  | .reply sequence limit => s!"no response to seq {sequence.toNat} within {limit.text}"
  | .connection place => s!"connect to {place}"
  | .reported detail => detail

inductive SendFault where
  | tooLong (payload : Nat)
  | reported (detail : String)
  deriving DecidableEq, Repr

def SendFault.message : SendFault → String
  | .tooLong payload => s!"{payload} byte payload exceeds the frame limit"
  | .reported detail => detail

inductive ReceiveFault where
  /-- The stream ended inside a frame. -/
  | cutShort
  | reported (detail : String)
  deriving DecidableEq, Repr

def ReceiveFault.message : ReceiveFault → String
  | .cutShort => "early eof"
  | .reported detail => detail

inductive LinkError where
  | unreachable (detail : String)
  | closed
  | notSent (fault : SendFault)
  | notReceived (fault : ReceiveFault)
  | silent (silence : Silence)
  | malformed (fault : FrameFault)
  deriving DecidableEq, Repr

namespace LinkError

def message : LinkError → String
  | unreachable detail => "Cannot reach node daemon: " ++ detail
  | closed => "Node daemon connection closed"
  | notSent fault => "Cannot send request to node daemon: " ++ fault.message
  | notReceived fault => "Cannot read from node daemon: " ++ fault.message
  | silent silence => "Node daemon did not answer: " ++ silence.message
  | malformed fault => "Malformed daemon frame: " ++ fault.message

/-- Holds where the connection is gone and has to be made anew. -/
def isLost : LinkError → Bool
  | unreachable _ | closed | notReceived _ => true
  | _ => false

end LinkError

end Canopen
