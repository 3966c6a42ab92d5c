import Canopen.Request
/-!
# Replies and events

What the daemon answers to a request and what it tells on its own, as frames and back.
-/
namespace Canopen

inductive Reply where
  | entry (data : List UInt8)
  | ack
  | state (code : UInt8)
  | nodes (ids : List UInt8)
  | refusal (r : Refusal)
  deriving DecidableEq, Repr

namespace Refusal

def messageId : Refusal → UInt8
  | unknownMessage _ => 0x80
  | badLength => 0x81
  | noSuchPdo _ => 0x82
  | abort _ => 0x83
  | unknownNode _ => 0x85

def payload : Refusal → List UInt8
  | unknownMessage id => [id]
  | badLength => []
  | noSuchPdo number => [number]
  | abort code => Bytes.ofWord32 code
  | unknownNode node => [node]

/-- The constructor and the content of a refusal, in the words of messages. -/
def describe : Refusal → String
  | unknownMessage id => s!"UnknownMessage({id.toNat})"
  | badLength => "BadLength"
  | noSuchPdo number => s!"BadTpdo({number.toNat})"
  | abort code => s!"Abort({code.toNat})"
  | unknownNode node => s!"UnknownNode({node.toNat})"

end Refusal

namespace Reply

/-- The largest number of nodes in a list of nodes, which begins with their number in one byte. -/
def maxNodes : Nat := 255

/-- The frame of a reply to a request of the given message id. -/
def toFrame (r : Reply) (requestId : UInt8) (sequence : UInt16) : Except LinkError Frame :=
  match r with
  | entry data => .ok ⟨requestId, sequence, data⟩
  | ack => .ok ⟨requestId, sequence, []⟩
  | state code => .ok ⟨requestId, sequence, [code]⟩
  | nodes ids =>
    if maxNodes < ids.length then .error (.malformed (.tooManyNodes ids.length))
    else .ok ⟨requestId, sequence, UInt8.ofNat ids.length :: ids⟩
  | refusal why => .ok ⟨why.messageId, sequence, why.payload⟩

/-- The only replies that make no frame are lists of too many nodes. -/
theorem exists_toFrame_error_iff (r : Reply) (id : UInt8) (sequence : UInt16) :
    (∃ e, r.toFrame id sequence = .error e) ↔ ∃ ids, r = .nodes ids ∧ maxNodes < ids.length := by
  cases r with
  | nodes ids => by_cases h : maxNodes < ids.length <;> simp [toFrame, h]
  | entry | ack | state | refusal => simp [toFrame]

theorem sequence_of_toFrame {r : Reply} {id : UInt8} {sequence : UInt16} {f : Frame}
    (h : r.toFrame id sequence = .ok f) : f.sequence = sequence := by
  cases r with
  | nodes ids =>
    simp only [toFrame] at h
    split at h
    · contradiction
    · rw [← Except.ok.inj h]
  | entry | ack | state | refusal => rw [← Except.ok.inj h]

/-- The reply of a frame. Bytes after its last part are passed over, and a refusal without the byte
it is about is read as being about zero. -/
def ofFrame (f : Frame) : Except LinkError Reply :=
  let first := f.payload.headD 0
  let short (part : ReplyPart) : Except LinkError Reply := .error (.malformed (.shortReply part))
  match f.messageId.toNat with
  | 0x02 => .ok (entry f.payload)
  | 0x00 | 0x01 | 0x03 | 0x07 => .ok ack
  | 0x06 =>
    match f.payload with
    | code :: _ => .ok (state code)
    | [] => short .state
  | 0x08 =>
    match f.payload with
    | count :: ids =>
      if ids.length < count.toNat then short .nodeList else .ok (nodes (ids.take count.toNat))
    | [] => short .nodeList
  | 0x80 => .ok (refusal (.unknownMessage first))
  | 0x81 => .ok (refusal .badLength)
  | 0x82 => .ok (refusal (.noSuchPdo first))
  | 0x83 =>
    match f.payload with
    | a :: b :: c :: d :: _ => .ok (refusal (.abort (Bytes.word32 a b c d)))
    | _ => short .abort
  | 0x85 => .ok (refusal (.unknownNode first))
  | _ => .error (.malformed (.unknownReply f.messageId))

/-- A refusal is read back from its message id and its payload. -/
theorem ofFrame_refusal (why : Refusal) (sequence : UInt16) :
    ofFrame ⟨why.messageId, sequence, why.payload⟩ = .ok (.refusal why) := by
  cases why with
  | abort code =>
    obtain ⟨a, b, c, d, hw, rfl⟩ := Bytes.exists_ofWord32 code
    simp only [Refusal.payload, hw]
    rfl
  | unknownMessage id | noSuchPdo number | unknownNode node | badLength => rfl

/-- A refusal whose byte is missing is read as being about zero. -/
theorem ofFrame_refusal_of_missing {why : Refusal} (h : why.payload = [0]) (sequence : UInt16) :
    ofFrame ⟨why.messageId, sequence, []⟩ = .ok (.refusal why) := by
  cases why with
  | abort code =>
    obtain ⟨a, b, c, d, hw, -⟩ := Bytes.exists_ofWord32 code
    simp [Refusal.payload, hw] at h
  | badLength => contradiction
  | unknownMessage id | noSuchPdo number | unknownNode node =>
    obtain rfl := (List.cons.inj h).1
    rfl

def listText (bytes : List UInt8) : String :=
  "[" ++ String.intercalate ", " (bytes.map fun b => toString b.toNat) ++ "]"

/-- The kind and the content of a reply, in the words of messages. -/
def describe : Reply → String
  | entry data => s!"Entry({listText data})"
  | ack => "Ack"
  | state code => s!"State({code.toNat})"
  | nodes ids => s!"Nodes({listText ids})"
  | refusal why => s!"Error({why.describe})"

end Reply

inductive Event where
  | heartbeat (node : UInt8) (state : UInt8)
  | emergency (node : UInt8) (code : UInt16) (info : UInt32)
  | busStatus (flags : UInt8)
  deriving DecidableEq, Repr

namespace Event

def node? : Event → Option UInt8
  | heartbeat node _ | emergency node _ _ => some node
  | busStatus _ => none

def toFrame : Event → Frame
  | heartbeat node state => ⟨0x90, Frame.eventSequence, [node, state]⟩
  | emergency node code info =>
    ⟨0x91, Frame.eventSequence, node :: Bytes.ofWord16 code ++ Bytes.ofWord32 info⟩
  | busStatus flags => ⟨0x92, Frame.eventSequence, [flags]⟩

/-- The event of a frame. Bytes after its last part are passed over. -/
def ofFrame (f : Frame) : Except LinkError Event :=
  match f.messageId.toNat, f.payload with
  | 0x90, node :: state :: _ => .ok (heartbeat node state)
  | 0x91, node :: a :: b :: p :: q :: r :: s :: _ =>
    .ok (emergency node (Bytes.word16 a b) (Bytes.word32 p q r s))
  | 0x92, flags :: _ => .ok (busStatus flags)
  | _, _ => .error (.malformed (.badEvent f.messageId f.payload.length))

@[simp] theorem isEvent_toFrame (e : Event) : e.toFrame.isEvent = true := by cases e <;> rfl

/-- An event is read back from its frame. -/
@[simp] theorem ofFrame_toFrame (e : Event) : ofFrame e.toFrame = .ok e := by
  cases e with
  | emergency node code info =>
    obtain ⟨a, b, hw, rfl⟩ := Bytes.exists_ofWord16 code
    obtain ⟨p, q, r, s, hw', rfl⟩ := Bytes.exists_ofWord32 info
    simp only [toFrame, hw, hw']
    rfl
  | heartbeat node state | busStatus flags => rfl

end Event

end Canopen
