import Canopen.Connection.Basic
/-!
# Connections over streams

What a connection makes of the bytes that come in, and of requests whose frames are put on the stream
at once.
-/
namespace Canopen.Connection

/-- Does what can be done. -/
def attempt (c : Connection) (a : Action) : Connection := (c.step? a).getD c

/-- Cuts a connection, as the receiver does at the end of its stream and the writer when it fails. -/
def cut (c : Connection) (party : Party) : Connection :=
  (c.attempt (.cut party)).attempt (.clear party)

/-- Gets the whole frames at the beginning of a stream; gives the bytes after them. Bytes that begin no
frame cut the connection. -/
def receiveAll (c : Connection) (stream : List UInt8) : Connection × List UInt8 :=
  match h : Frame.read stream with
  | .ok (f, rest) =>
    have := Frame.length_rest_lt h
    (c.attempt (.receive f)).receiveAll rest
  | .error (.malformed _) => (c.cut .receiver, [])
  | .error _ => (c, stream)
termination_by stream.length

/-- Begins a request and puts its frame on the stream; gives its place. -/
def begin (c : Connection) (request : Request) (limit : Duration) : Nat × Connection :=
  let id := c.calls.length
  let c := c.attempt (.start request limit)
  let c := [Action.list id, .check id, .queue id, .takeFrame].foldl attempt c
  (id, c.attempt (.write c.unwritten.length))

def beginAll (c : Connection) : List (Duration × Request) → List Nat × Connection
  | [] => ([], c)
  | (limit, request) :: rest =>
    let (id, c) := c.begin request limit
    let (ids, c) := c.beginAll rest
    (id :: ids, c)

def answer? (c : Connection) (id : Nat) : Option Answer :=
  match (c.calls[id]?).map Call.stage with
  | some (.finished (.answered r)) => some (.ok r)
  | some (.finished (.failed e)) => some (.error e)
  | _ => none

end Canopen.Connection
