import Canopen.Bytes
import Canopen.LinkError
/-!
# Frames

Every message travels in a frame: the length of the body in four bytes, then the body, which is a
message id, a sequence number of two bytes and the payload. A reply has the sequence number of its
request; an event has number zero.

`Frame.readAll` takes a stream apart. What it returns tells the stream: the frames read, encoded one
after another, and a rest that begins with no frame.
-/
namespace Canopen

structure Frame where
  messageId : UInt8
  sequence : UInt16
  payload : List UInt8
  deriving DecidableEq, Repr

namespace Frame

/-- The number of bytes of a body before its payload. -/
def headerLength : Nat := 3

/-- The number of bytes of the longest body. -/
def maxLength : Nat := 65536

def eventSequence : UInt16 := 0

/-- Holds of the frames that answer no request. -/
def isEvent (f : Frame) : Bool := f.sequence = eventSequence

/-- The bytes after the length. -/
def body (f : Frame) : List UInt8 := f.messageId :: Bytes.ofWord16 f.sequence ++ f.payload

def bodyLength (f : Frame) : Nat := headerLength + f.payload.length

theorem headerLength_le_bodyLength (f : Frame) : headerLength ≤ f.bodyLength := by
  simp [bodyLength]

theorem bodyLength_le_iff {f : Frame} :
    f.bodyLength ≤ maxLength ↔ f.payload.length ≤ maxLength - headerLength := by
  simp only [bodyLength, headerLength, maxLength]
  omega

@[simp] theorem length_body (f : Frame) : f.body.length = f.bodyLength := by
  simp [body, bodyLength, Bytes.ofWord16, headerLength]
  omega

def encode (f : Frame) : List UInt8 := Bytes.littleEndian 4 f.bodyLength ++ f.body

@[simp] theorem length_encode (f : Frame) : f.encode.length = 4 + f.bodyLength := by
  simp [encode]

theorem encode_of_bodyLength {f : Frame} {a b c d : UInt8} (h : f.bodyLength = Bytes.toNat [a, b, c, d]) :
    f.encode = a :: b :: c :: d :: f.body := by
  rw [encode, h]
  exact congrArg (· ++ f.body) (Bytes.littleEndian_toNat [a, b, c, d])

def ofBody : List UInt8 → Except LinkError Frame
  | id :: a :: b :: payload => .ok ⟨id, Bytes.word16 a b, payload⟩
  | short => .error (.malformed (.shortBody short.length))

@[simp] theorem ofBody_body (f : Frame) : ofBody f.body = .ok f := by
  obtain ⟨a, b, hw, hv⟩ := Bytes.exists_ofWord16 f.sequence
  simp [body, hw, ofBody, hv]

theorem body_inj {f g : Frame} (h : f.body = g.body) : f = g := by
  have hok := ofBody_body f
  rw [h, ofBody_body] at hok
  exact (Except.ok.inj hok).symm

/-- A length that a body can have. -/
def checkLength (length : Nat) : Except LinkError Nat :=
  if headerLength ≤ length ∧ length ≤ maxLength then .ok length
  else .error (.malformed (.badLength length))

/-- The first frame of a stream and the rest. A stream that ends inside a length counts as closed,
one that ends inside a body does not. -/
def read : List UInt8 → Except LinkError (Frame × List UInt8)
  | a :: b :: c :: d :: rest =>
    match checkLength (Bytes.toNat [a, b, c, d]) with
    | .error e => .error e
    | .ok length =>
      let body := rest.take length
      if body.length < length then .error (.notReceived .cutShort)
      else
        match ofBody body with
        | .ok frame => .ok (frame, rest.drop length)
        | .error e => .error e
  | _ => .error .closed

theorem length_rest_lt {stream rest : List UInt8} {frame : Frame}
    (h : read stream = .ok (frame, rest)) : rest.length < stream.length := by
  unfold read at h
  split at h
  · split at h
    · contradiction
    · dsimp only at h
      split at h
      · contradiction
      · split at h
        · simp only [Except.ok.injEq, Prod.mk.injEq] at h
          simp only [← h.2, List.length_drop, List.length_cons]
          omega
        · contradiction
  · contradiction

/-- The frames of a stream, and the error that ends it. -/
def readAll (stream : List UInt8) : List Frame × LinkError :=
  match h : read stream with
  | .ok (frame, rest) =>
    have := length_rest_lt h
    let (frames, e) := readAll rest
    (frame :: frames, e)
  | .error e => ([], e)
termination_by stream.length

end Frame

end Canopen
