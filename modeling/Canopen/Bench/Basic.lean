import Canopen.Config
import Canopen.Daemon
import Canopen.Network
/-!
# The test bench

A daemon in memory with what stands between it and its clients: a clock that only waiting moves, the
time a request takes, a connection that can be cut, a log of the requests, and answers that are
prepared in place of the daemon's own.
-/
namespace Canopen

structure Bench where
  daemon : Daemon := {}
  /-- How long a request takes to reach the daemon. -/
  latency : Duration := ⟨0⟩
  connected : Bool := true
  clock : Duration := ⟨0⟩
  handled : Nat := 0
  /-- Answers that the next requests get instead of reaching the daemon. -/
  prepared : List Answer := []
  /-- The requests handed to the link, in order. -/
  sent : List Request := []
  told : List Event := []
  /-- Whether subscriptions made from now on end at once. -/
  deaf : Bool := false

namespace Bench

/-- The bench of a daemon whose local node has the standard entries. -/
def ofLocal (d : LocalDaemon) : Bench :=
  { daemon := ({} : Daemon).addNode d.localNode Standard.catalog, latency := d.latency }

/-- The longest time that a pause lasts: thirty years. A time limit for an event may be longer. -/
def longestPause : Duration := ⟨30 * 365 * 24 * 60 * 60 * 1000⟩

def pauseLength (d : Duration) : Nat := min d.milliseconds longestPause.milliseconds

def wait (b : Bench) (d : Duration) : Bench :=
  { b with clock := ⟨b.clock.milliseconds + pauseLength d⟩ }

def tell (b : Bench) (events : List Event) : Bench := { b with told := b.told ++ events }

def change (b : Bench) (f : Daemon → Daemon × List Event) : Bench :=
  let (daemon, events) := f b.daemon
  { b with daemon }.tell events

def serve (b : Bench) (r : Request) : Option Reply × Bench :=
  let (reply, daemon, events) := b.daemon.handle r
  (reply, { b with daemon, handled := b.handled + 1 }.tell events)

def log (b : Bench) (r : Request) : Bench := { b with sent := b.sent ++ [r] }

/-- What a client is told that has waited in vain. -/
def silence (limit : Duration) : Answer := .error (.silent (.node limit))

/-- The link of the bench: a prepared answer, or else the daemon's within the time limit. -/
def exchange : Link Bench := fun limit r b =>
  let b := b.log r
  match b.prepared with
  | answer :: prepared => (answer, { b with prepared })
  | [] =>
    if !b.connected then (.error .closed, b)
    else
      match (b.wait b.latency).serve r with
      | (some reply, b) => (.ok reply, b)
      | (none, b) => (silence limit, b.wait limit)

/-- How many events wait for a subscriber before the oldest are lost. -/
def queueLength : Nat := 256

/-- What a subscriber gets of events that came since it last looked. -/
def signals (events : List Event) : List Client.Signal :=
  let lost := events.length - queueLength
  if lost = 0 then events.map .event else .missed lost :: (events.drop lost).map .event

@[simp] theorem wait_daemon (b : Bench) (d : Duration) : (b.wait d).daemon = b.daemon := rfl

@[simp] theorem tell_daemon (b : Bench) (events : List Event) : (b.tell events).daemon = b.daemon := rfl

@[simp] theorem log_daemon (b : Bench) (r : Request) : (b.log r).daemon = b.daemon := rfl

@[simp] theorem serve_daemon (b : Bench) (r : Request) :
    (b.serve r).2.daemon = (b.daemon.handle r).2.1 := rfl

@[simp] theorem serve_reply (b : Bench) (r : Request) : (b.serve r).1 = (b.daemon.handle r).1 := rfl

end Bench

end Canopen
