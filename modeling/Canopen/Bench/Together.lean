import Canopen.Bench.Basic
/-!
# Operations at the same time

Several operations on one bench. Each goes on in turn until it has to wait, for its request to reach
the daemon or for the end of its time limit. Then the clock moves to the earliest time at which one
of them can go on.
-/
namespace Canopen.Bench

inductive Progress (α : Type) where
  | finished (a : α)
  /-- A request reaches the daemon at the given time. -/
  | underway (arrival : Nat) (request : Request) (next : Answer → Operation α)
  /-- The daemon stays silent and the time limit ends at the given time. -/
  | unanswered (deadline : Nat) (next : Answer → Operation α)

/-- An operation with its time limit, the state last observed of its node, and where it has come
to. -/
structure Task (α : Type) where
  limit : Duration
  observed : NodeState
  progress : Progress α

namespace Task

variable {α : Type}

def wakeTime? (t : Task α) : Option Nat :=
  match t.progress with
  | .finished _ => none
  | .underway arrival _ _ => some arrival
  | .unanswered deadline _ => some deadline

/-- Goes on with an operation until it waits or ends. -/
def advance (limit : Duration) (observed : NodeState) (b : Bench) : Operation α → Task α × Bench
  | .done a => (⟨limit, observed, .finished a⟩, b)
  | .look next => advance limit observed b (next observed)
  | .note state next => advance limit state b next
  | .ask r next =>
    let b := b.log r
    match b.prepared with
    | answer :: prepared => advance limit observed { b with prepared } (next answer)
    | [] =>
      if !b.connected then advance limit observed b (next (.error .closed))
      else if b.latency.milliseconds ≠ 0 then
        (⟨limit, observed, .underway (b.clock.milliseconds + pauseLength b.latency) r next⟩, b)
      else
        match b.serve r with
        | (some reply, b) => advance limit observed b (next (.ok reply))
        | (none, b) =>
          if limit.milliseconds ≠ 0 then
            (⟨limit, observed, .unanswered (b.clock.milliseconds + pauseLength limit) next⟩, b)
          else advance limit observed b (next (silence limit))

def isDue (t : Task α) (b : Bench) : Bool := t.wakeTime?.any (· ≤ b.clock.milliseconds)

def resume (t : Task α) (b : Bench) : Task α × Bench :=
  match t.progress with
  | .finished _ => (t, b)
  | .underway _ r next =>
    match b.serve r with
    | (some reply, b) => advance t.limit t.observed b (next (.ok reply))
    | (none, b) =>
      if t.limit.milliseconds ≠ 0 then
        ({ t with progress := .unanswered (b.clock.milliseconds + pauseLength t.limit) next }, b)
      else advance t.limit t.observed b (next (silence t.limit))
  | .unanswered _ next => advance t.limit t.observed b (next (silence t.limit))

/-- How many tasks go on before the others are put off. -/
def turnLength : Nat := 128

/-- Goes on with the tasks whose time has come, in turn. Those after the first `turn` ones are put off
until the others have gone on, and the last one put off is the first to go on then. -/
def resumeAll (turn : Nat) : List (Task α) → Bench → List (Task α) × Bench
  | [], b => ([], b)
  | t :: rest, b =>
    if !t.isDue b then
      let (rest, b) := resumeAll turn rest b
      (t :: rest, b)
    else
      match turn with
      | 0 =>
        let (rest, b) := resumeAll 0 rest b
        let (t, b) := t.resume b
        (t :: rest, b)
      | left + 1 =>
        let (t, b) := t.resume b
        let (rest, b) := resumeAll left rest b
        (t :: rest, b)

/-- Brings a task to its end without regard to others. -/
def finish (t : Task α) (b : Bench) : (α × NodeState) × Bench :=
  let go (x : Operation α) (b : Bench) : (α × NodeState) × Bench :=
    let (a, observed, b) := x.run exchange t.limit t.observed b
    ((a, observed), b)
  match t.progress with
  | .finished a => ((a, t.observed), b)
  | .underway _ r next =>
    match b.serve r with
    | (some reply, b) => go (next (.ok reply)) b
    | (none, b) => go (next (silence t.limit)) b
  | .unanswered _ next => go (next (silence t.limit)) b

def finishAll : List (Task α) → Bench → List (α × NodeState) × Bench
  | [], b => ([], b)
  | t :: rest, b =>
    let (r, b) := t.finish b
    let (rest, b) := finishAll rest b
    (r :: rest, b)

def nextWake? (tasks : List (Task α)) : Option Nat := (tasks.filterMap wakeTime?).min?

/-- Moves the clock on from wake time to wake time until all tasks have ended, at most as often as
given. Tasks that have not ended by then are finished one after another. -/
def rounds : Nat → List (Task α) → Bench → List (α × NodeState) × Bench
  | 0, tasks, b => finishAll tasks b
  | fuel + 1, tasks, b =>
    match nextWake? tasks with
    | none => finishAll tasks b
    | some time =>
      let (tasks, b) := resumeAll turnLength tasks { b with clock := ⟨time⟩ }
      rounds fuel tasks b

end Task

def startAll {α : Type} : List (Duration × NodeState × Operation α) → Bench → List (Task α) × Bench
  | [], b => ([], b)
  | (limit, observed, x) :: rest, b =>
    let (t, b) := Task.advance limit observed b x
    let (rest, b) := startAll rest b
    (t :: rest, b)

/-- How often an operation of a client waits at most: twice for each of its at most two requests. -/
def waitsPerOperation : Nat := 4

/-- Carries out operations at the same time. -/
def together {α : Type} (operations : List (Duration × NodeState × Operation α)) (b : Bench) :
    List (α × NodeState) × Bench :=
  let (tasks, b) := startAll operations b
  Task.rounds (waitsPerOperation * operations.length) tasks b

def channel : Channel Bench where
  link := exchange
  together := together

theorem length_resumeAll {α : Type} (turn : Nat) (tasks : List (Task α)) (b : Bench) :
    (Task.resumeAll turn tasks b).1.length = tasks.length := by
  induction tasks generalizing turn b with
  | nil => rfl
  | cons t rest ih =>
    unfold Task.resumeAll
    split
    · simp [ih]
    · split <;> simp [ih]

theorem length_finishAll {α : Type} (tasks : List (Task α)) (b : Bench) :
    (Task.finishAll tasks b).1.length = tasks.length := by
  induction tasks generalizing b with
  | nil => rfl
  | cons t rest ih => simp [Task.finishAll, ih]

theorem length_rounds {α : Type} (fuel : Nat) (tasks : List (Task α)) (b : Bench) :
    (Task.rounds fuel tasks b).1.length = tasks.length := by
  induction fuel generalizing tasks b with
  | zero => exact length_finishAll tasks b
  | succ fuel ih =>
    unfold Task.rounds
    split
    · exact length_finishAll tasks b
    · simp [ih, length_resumeAll]

theorem length_startAll {α : Type} (operations : List (Duration × NodeState × Operation α))
    (b : Bench) : (startAll operations b).1.length = operations.length := by
  induction operations generalizing b with
  | nil => rfl
  | cons x rest ih => simp [startAll, ih]

@[simp] theorem length_together {α : Type} (operations : List (Duration × NodeState × Operation α))
    (b : Bench) : (together operations b).1.length = operations.length := by
  simp [together, length_rounds, length_startAll]

end Canopen.Bench
