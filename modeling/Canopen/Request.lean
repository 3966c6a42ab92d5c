import Canopen.Address
import Canopen.AbortCode
import Canopen.Frame
/-!
# Requests and refusals

What a client can ask of the daemon, how it is written as a frame, and how the daemon reads it. A
frame that is no request is answered with a refusal.
-/
namespace Canopen

inductive Request where
  | readEntry (node : UInt8) (address : Address)
  | writeEntry (node : UInt8) (address : Address) (data : List UInt8)
  | queryState (node : UInt8)
  | command (node : UInt8) (code : UInt8)
  | listNodes
  | sendEmergency (node : UInt8) (code : UInt16) (info : UInt32)
  | sendPdo (node : UInt8) (number : UInt8)
  deriving DecidableEq, Repr

inductive Refusal where
  | unknownMessage (id : UInt8)
  | badLength
  | noSuchPdo (number : UInt8)
  | abort (code : AbortCode)
  | unknownNode (node : UInt8)
  deriving DecidableEq, Repr

namespace Request

def messageId : Request → UInt8
  | sendEmergency .. => 0x00
  | sendPdo .. => 0x01
  | readEntry .. => 0x02
  | writeEntry .. => 0x03
  | queryState _ => 0x06
  | command .. => 0x07
  | listNodes => 0x08

def node? : Request → Option UInt8
  | readEntry node _ | writeEntry node _ _ | queryState node | command node _ |
    sendEmergency node _ _ | sendPdo node _ => some node
  | listNodes => none

def addressBytes (a : Address) : List UInt8 := Bytes.ofWord16 a.index ++ [a.subIndex]

def payload : Request → List UInt8
  | readEntry node address => node :: addressBytes address
  | writeEntry node address data => node :: addressBytes address ++ data
  | queryState node => [node]
  | command node code => [node, code]
  | listNodes => []
  | sendEmergency node code info => node :: Bytes.ofWord16 code ++ Bytes.ofWord32 info
  | sendPdo node number => [node, number]

def toFrame (r : Request) (sequence : UInt16) : Frame := ⟨r.messageId, sequence, r.payload⟩

@[simp] theorem sequence_toFrame (r : Request) (sequence : UInt16) :
    (r.toFrame sequence).sequence = sequence := rfl

/-- The request of a frame. Bytes after its last part are passed over. -/
def ofFrame (f : Frame) : Except Refusal Request :=
  match f.messageId.toNat, f.payload with
  | 0x00, node :: a :: b :: p :: q :: r :: s :: _ =>
    .ok (sendEmergency node (Bytes.word16 a b) (Bytes.word32 p q r s))
  | 0x01, node :: number :: _ => .ok (sendPdo node number)
  | 0x02, node :: a :: b :: subIndex :: _ => .ok (readEntry node ⟨Bytes.word16 a b, subIndex⟩)
  | 0x03, node :: a :: b :: subIndex :: data =>
    .ok (writeEntry node ⟨Bytes.word16 a b, subIndex⟩ data)
  | 0x06, node :: _ => .ok (queryState node)
  | 0x07, node :: code :: _ => .ok (command node code)
  | 0x08, _ => .ok listNodes
  | 0x00, _ | 0x01, _ | 0x02, _ | 0x03, _ | 0x06, _ | 0x07, _ => .error .badLength
  | _, _ => .error (.unknownMessage f.messageId)

end Request

end Canopen
