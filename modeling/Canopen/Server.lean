import Canopen.Connection.Basic
import Canopen.Daemon
/-!
# The daemon behind a stream

The daemon gets frames and sends frames. A frame that is no request is answered with a refusal; to a
request it stays silent about, and where a reply does not fit a frame, it sends nothing.
-/
namespace Canopen.Daemon

/-- The frame that answers a frame, if one does, what becomes of the daemon, and the events. -/
def serveFrame (d : Daemon) (f : Frame) : Option Frame × Daemon × List Event :=
  let send (r : Reply) : Option Frame := (r.toFrame f.messageId f.sequence).toOption
  match Request.ofFrame f with
  | .error why => (send (.refusal why), d, [])
  | .ok r =>
    let (reply, d, events) := d.handle r
    (reply.bind send, d, events)

/-- Serves frames in turn: the frames that answer them, what becomes of the daemon, and the events. -/
def serveFrames (d : Daemon) : List Frame → List Frame × Daemon × List Event
  | [] => ([], d, [])
  | f :: rest =>
    let (reply, d, first) := d.serveFrame f
    let (replies, d, others) := d.serveFrames rest
    (reply.toList ++ replies, d, first ++ others)

/-- Serves the frames of a stream. What follows the last whole frame is passed over. -/
def serveStream (d : Daemon) (stream : List UInt8) : List Frame × Daemon × List Event :=
  d.serveFrames (Frame.readAll stream).1

/-- What comes back over streams in both directions on a request: a reply with its sequence number, or
nothing where the daemon stays silent. -/
def answerOverStream (d : Daemon) (sequence : UInt16) (r : Request) :
    Except LinkError (Option (UInt16 × Reply)) × Daemon × List Event :=
  match r.sendFault? with
  | some fault => (.error (.notSent fault), d, [])
  | none =>
    match Frame.read (r.toFrame sequence).encode with
    | .error e => (.error e, d, [])
    | .ok (f, _) =>
      match d.serveFrame f with
      | (none, d, events) => (.ok none, d, events)
      | (some reply, d, events) =>
        match Frame.read reply.encode with
        | .error e => (.error e, d, events)
        | .ok (g, _) => ((Reply.ofFrame g).map fun r => some (g.sequence, r), d, events)

end Canopen.Daemon
