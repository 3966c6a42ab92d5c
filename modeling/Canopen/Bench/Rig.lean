import Canopen.Bench.Script
import Canopen.Bench.Together
/-!
# Test rigs

Clients at work on benches: a network, which may have been connected to a bench of its own, clients of
single nodes, which are made when they are first used, and a subscription to events.
-/
namespace Canopen.Bench

/-- A handle and the number of the bench that it works on. -/
structure Wired where
  handle : Handle
  bench : Nat
  deriving DecidableEq, Repr

/-- Clients on benches. The first bench is the one that clients of single nodes are made for. -/
structure Rig where
  limit : Duration
  benches : List Bench
  networkBench : Nat := 0
  session : Session
  clients : NodeMap Wired := .empty
  /-- How many events the subscription has let pass. -/
  subscription : Option Nat := none

namespace Rig

variable {α : Type}

def ofBench (limit : Duration) (b : Bench) : Rig :=
  { limit, benches := [b], session := { network := { limit } } }

def bench (r : Rig) (k : Nat) : Bench := r.benches.getD k {}

def setBench (r : Rig) (k : Nat) (b : Bench) : Rig := { r with benches := r.benches.set k b }

def onFirst (r : Rig) (f : Bench → α × Bench) : α × Rig :=
  let (a, b) := f (r.bench 0)
  (a, r.setBench 0 b)

def time (r : Rig) : Nat := r.benches.foldr (fun b time => b.clock.milliseconds + time) 0

/-- The client of a node. -/
def client (r : Rig) (node : UInt8) : Wired × Rig :=
  match r.clients.get? node with
  | some c => (c, r)
  | none =>
    let (handle, observations) := r.session.observations.newHandle node r.limit
    let c : Wired := ⟨handle, 0⟩
    (c, { r with session := { r.session with observations }, clients := r.clients.insert node c })

/-- Carries out an operation through the client of a node, or through a copy of it with another time
limit. -/
def perform (r : Rig) (node : UInt8) (limit : Option Duration)
    (op : UInt8 → Client.Attempt α) : Except ClientError α × Rig :=
  let (c, r) := r.client node
  let h := { c.handle with limit := limit.getD c.handle.limit }
  let (a, session, b) := r.session.perform channel h op (r.bench c.bench)
  (a, { r with session }.setBench c.bench b)

def performAll (r : Rig) (op : UInt8 → Client.Attempt α) :
    List (UInt8 × Except ClientError α) × Rig :=
  let (outcomes, session, b) := r.session.performAll channel op (r.bench r.networkBench)
  (outcomes, { r with session }.setBench r.networkBench b)

def listNodes (r : Rig) : Except ClientError (List UInt8) × Rig :=
  let (ids, session, b) := r.session.listNodes channel (r.bench r.networkBench)
  (ids, { r with session }.setBench r.networkBench b)

/-- Waits for a heartbeat of a node while a script is played on the first bench, of which a client on
another bench hears nothing. -/
def awaitHeartbeat (r : Rig) (node : UInt8) (limit : Duration) (s : Script) :
    Except ClientError NodeState × Rig :=
  let (c, r) := r.client node
  let first := r.bench 0
  let (signals, last) :=
    if c.bench = 0 then first.signalsWithin node limit s
    else ([], (play s first).2.waitUntil first limit.milliseconds)
  let (state, session) := r.session.awaitHeartbeat c.handle limit signals
  (state, { r with session }.setBench 0 last)

/-- Connects the network anew, to a local daemon on a bench of its own. -/
def connect (r : Rig) (limit : Duration) (d : LocalDaemon) : Rig :=
  { r with
    benches := r.benches ++ [.ofLocal d]
    networkBench := r.benches.length
    session := { r.session with network := { limit } } }

/-- Makes the network's client of a node the client of that node, if there is one. -/
def adopt? (r : Rig) (node : UInt8) : Option Rig :=
  (r.session.network.handle? node).map fun handle =>
    { r with clients := r.clients.insert node ⟨handle, r.networkBench⟩ }

def subscribe (r : Rig) : Rig :=
  let b := r.bench 0
  { r with subscription := if b.deaf then none else some b.told.length }

def pending (r : Rig) : List Client.Signal :=
  r.subscription.elim [] fun passed => signals ((r.bench 0).told.drop passed)

/-- Lets all events pass but the last ones. -/
def keepLast (r : Rig) (kept : Nat) : Rig :=
  { r with subscription := r.subscription.map fun _ => (r.bench 0).told.length - kept }

end Rig

end Canopen.Bench
