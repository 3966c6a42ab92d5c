import Canopen.Cli.Monitor
import Canopen.Config
import Canopen.Connection.Stream
import Std.Async.DNS
import Std.Async.Select
import Std.Async.TCP
import Std.Async.Timer
/-!
# Sockets

The outer layer between a connection and the network: bytes out, bytes in, and the clock.
-/
namespace Canopen.Cli

open Std.Async

/-- A socket with what has become of its connection, and the bytes of a frame that is not yet whole. -/
structure Socket where
  client : TCP.Socket.Client
  state : IO.Ref (Connection × List UInt8)

namespace Socket

def errorNumber (e : IO.Error) : Nat :=
  let code : UInt32 :=
    match e with
    | .alreadyExists _ c _ | .otherError c _ | .resourceBusy c _ | .resourceVanished c _ |
      .unsupportedOperation c _ | .hardwareFault c _ | .unsatisfiedConstraints c _ |
      .illegalOperation c _ | .protocolError c _ | .timeExpired c _ | .interrupted _ c _ |
      .noFileOrDirectory _ c _ | .invalidArgument _ c _ | .permissionDenied _ c _ |
      .resourceExhausted _ c _ | .inappropriateType _ c _ | .noSuchThing _ c _ => c
    | .unexpectedEof | .userError _ => 0
  if code < 0x80000000 then code.toNat else (0 - code).toNat

/-- Connects to the first address that takes the connection. -/
def connectTo (port : UInt16) : List Std.Net.IPAddr → Async TCP.Socket.Client
  | [] => throw (IO.userError "")
  | address :: rest => do
    let client ← TCP.Socket.Client.mk
    try
      match address with
      | .v4 a => client.connect (.v4 ⟨a, port⟩)
      | .v6 a => client.connect (.v6 ⟨a, port⟩)
      client.noDelay
      return client
    catch e => if rest.isEmpty then throw e else connectTo port rest

def connect (e : Endpoint) : IO (Except LinkError Socket) := do
  let attempt : Async (Option TCP.Socket.Client) := do
    let addresses ← DNS.getAddrInfo e.host (toString e.port.toNat)
    return some (← connectTo e.port addresses.toList)
  let clock : Async (Option TCP.Socket.Client) := do
    sleep (.ofNat e.connectTimeout.milliseconds)
    return none
  try
    match ← (Async.race attempt clock).block with
    | some client => return .ok ⟨client, ← IO.mkRef ({}, [])⟩
    | none => return .error (.silent (.connection e.place))
  catch err =>
    return .error (.unreachable (e.place ++ ": " ++ SystemError.text (errorNumber err)))

/-- Waits for bytes, for some milliseconds at most, and lets the connection have them. -/
def listen (s : Socket) (limit : Nat) : IO Unit := do
  let cut : IO Unit := s.state.modify fun (c, _) => (c.cut .receiver, [])
  if limit = 0 || (← s.state.get).1.receiver ≠ .running then
    (sleep (.ofNat limit)).block
  else
    try
      let bytes ← Async.block do
        Selectable.one #[
          .case (s.client.recvSelector 65536) fun bytes => return some bytes,
          .case (← Selector.sleep (.ofNat limit)) fun _ => return none]
      match bytes with
      | none => return ()
      | some none => cut
      | some (some bytes) => s.state.modify fun (c, rest) => c.receiveAll (rest ++ bytes.toList)
    catch _ => cut

/-- Waits until requests have ended, each by the time given with it. -/
partial def await (s : Socket) (calls : List (Nat × Nat)) : IO Unit := do
  let now ← IO.monoMsNow
  s.state.modify fun (c, rest) =>
    let end_ (c : Connection) (call : Nat × Nat) : Connection :=
      let c := c.attempt (.collect call.1)
      if call.2 ≤ now then c.attempt (.expire call.1) else c
    (calls.foldl end_ c, rest)
  let (c, _) ← s.state.get
  let left := calls.filter fun call => (c.answer? call.1).isNone
  match (left.map Prod.snd).min? with
  | none => return ()
  | some time =>
    s.listen (time - now)
    s.await left

def exchange (s : Socket) (requests : List (Duration × Request)) : IO (List Answer) := do
  let now ← IO.monoMsNow
  let (before, rest) ← s.state.get
  let (ids, c) := before.beginAll requests
  s.state.set (c, rest)
  let bytes := c.written.drop before.written.length
  try
    (s.client.send ⟨bytes.toArray⟩).block
  catch _ => s.state.modify fun (c, rest) => (c.cut .writer, rest)
  s.await (ids.zip (requests.map fun r => now + r.1.milliseconds))
  let (c, _) ← s.state.get
  return ids.map fun id => (c.answer? id).getD (.error .closed)

end Socket

end Canopen.Cli
