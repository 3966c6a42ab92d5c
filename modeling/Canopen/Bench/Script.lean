import Canopen.Bench.Basic
/-!
# Scripts

What happens on a bench while a client listens: changes, each some time after the one before. A
client learns the events moment by moment.
-/
namespace Canopen.Bench

/-- Changes of a bench, each with the time to wait before it. -/
abbrev Script := List (Duration × (Bench → Bench))

/-- What changes of one time have brought about. -/
structure Moment where
  /-- The time since the beginning. -/
  time : Duration
  events : List Event
  /-- Whether the daemon is connected afterwards. -/
  connected : Bool
  deriving DecidableEq, Repr

/-- Puts a moment before later ones. Moments of the same time are one. -/
def Moment.before (m : Moment) : List Moment → List Moment
  | [] => [m]
  | n :: rest =>
    if m.time = n.time then ⟨n.time, m.events ++ n.events, n.connected⟩ :: rest else m :: n :: rest

/-- Plays a script that has been going on for some time. -/
def playFrom (elapsed : Duration) : Script → Bench → List Moment × Bench
  | [], b => ([], b)
  | (delay, f) :: rest, b =>
    let elapsed : Duration := ⟨elapsed.milliseconds + pauseLength delay⟩
    let after := f (b.wait delay)
    let (moments, last) := playFrom elapsed rest after
    (Moment.before ⟨elapsed, after.told.drop b.told.length, after.connected⟩ moments, last)

def play (s : Script) (b : Bench) : List Moment × Bench := playFrom ⟨0⟩ s b

/-- Lets time pass until a given time after the beginning, unless that is over. -/
def waitUntil (b start : Bench) (time : Nat) : Bench :=
  { b with clock := ⟨max b.clock.milliseconds (start.clock.milliseconds + time)⟩ }

/-- What comes while a client waits for a heartbeat of a node and a script is played. What comes when
the time limit has passed is too late. Without a heartbeat the time limit is waited for. -/
def signalsWithin (node : UInt8) (limit : Duration) (s : Script) (b : Bench) :
    List Client.Signal × Bench :=
  let (moments, last) := play s b
  if b.deaf then ([.ended], last)
  else
    let inTime := moments.filter fun m => m.time.milliseconds < limit.milliseconds
    let heard := inTime.flatMap fun m => signals m.events
    match heard.findSome? (Client.heard node) with
    | some _ => (heard, last)
    | none => (heard, last.waitUntil b limit.milliseconds)

/-- How long a monitored daemon stays connected after a script. -/
def linger : Duration := ⟨5⟩

/-- Looks at the connection that are due before a time, of which some are done. -/
def checks (connected : Bool) (done due : Nat) : List (Nat × Client.Happening) :=
  (List.range (due - done)).map fun k => (Client.checkPeriod * (done + k), .check connected)

/-- What happens to a client that looks at the connection from time to time and gets the signals of
moments. Looks come before the changes of the same time. -/
def happenings (connected : Bool) (done : Nat) : List Moment → List (Nat × Client.Happening)
  | [] => checks connected done (done + 1)
  | m :: rest =>
    let due := m.time.milliseconds / Client.checkPeriod + 1
    checks connected done due ++
      (signals m.events).map (fun s => (m.time.milliseconds, .signal s m.time)) ++
      happenings m.connected (max done due) rest

/-- What happens to a client that monitors events while a script is played, after which the
connection is cut and, once the client has ended, made again. -/
def listen (s : Script) (b : Bench) : List Client.Happening × Bench :=
  let cut (b : Bench) : Bench := { b with connected := false }
  let (moments, last) := play (s ++ [(linger, cut)]) b
  let last := { last with connected := true }
  if b.deaf then ([.check b.connected, .signal .ended ⟨0⟩], last)
  else
    let timed := happenings b.connected 0 moments
    let ending := (timed.find? fun h => h.2 = .check false).map Prod.fst
    (timed.map Prod.snd, last.waitUntil b (ending.getD 0))

end Canopen.Bench
