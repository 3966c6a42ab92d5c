import Canopen.Cli.Command
/-!
# Rehearsals

A command depends on what it gets from outside. A rehearsal carries it out with what is known so far
and stops asking at the first wish that is not yet fulfilled. Once it is, the command is rehearsed
again; a rehearsal without a wish at its end is the real thing.
-/
namespace Canopen.Cli

inductive Wish where
  /-- Answers to requests that are made at the same time, each with its time limit. -/
  | answers (requests : List (Duration × Request))
  | content (path : String)
  | storage (path : String) (bytes : List UInt8)
  deriving DecidableEq, Repr

inductive Fulfilment where
  | answers (as : List Answer)
  | content (r : Except FileFault (List UInt8))
  | storage (r : Except FileFault Unit)

/-- What is known in a rehearsal and not yet used, and the wish at which it has stopped. -/
structure Rehearsal where
  known : List Fulfilment
  wish : Option Wish := none

namespace Rehearsal

variable {α : Type}

/-- What came of a wish, if it is known. The first one that is not known is kept. -/
def ask (w : Wish) (r : Rehearsal) : Option Fulfilment × Rehearsal :=
  if r.wish.isSome then (none, r)
  else
    match r.known with
    | f :: known => (some f, { r with known })
    | [] => (none, { r with wish := some w })

/-- The answers to requests that are made at the same time. -/
def askAll (requests : List (Duration × Request)) (r : Rehearsal) : List Answer × Rehearsal :=
  match r.ask (.answers requests) with
  | (some (.answers as), r) => (as, r)
  | (_, r) => ([], r)

/-- What stands for an answer that is not known. -/
def unknown : Answer := .error .closed

def exchange : Link Rehearsal := fun limit request r =>
  let (as, r) := r.askAll [(limit, request)]
  (as.headD unknown, r)

/-- An operation up to its next request, with the state then observed. -/
def settle (observed : NodeState) : Operation α → NodeState × Operation α
  | .look next => settle observed (next observed)
  | .note state next => settle state next
  | x => (observed, x)

def request? (limit : Duration) : Operation α → Option (Duration × Request)
  | .ask request _ => some (limit, request)
  | _ => none

/-- Operations after answers to those that begin with a request. -/
def resume : List (Duration × NodeState × Operation α) → List Answer →
    List (Duration × NodeState × Operation α)
  | (limit, observed, .ask _ next) :: rest, as =>
    let (observed, x) := settle observed (next (as.headD unknown))
    (limit, observed, x) :: resume rest as.tail
  | op :: rest, as => op :: resume rest as
  | [], _ => []

/-- Carries out operations at the same time, a request of each at once, at most as often as given;
what is then left is carried out in turn. -/
def rounds : Nat → List (Duration × NodeState × Operation α) → Rehearsal →
    List (α × NodeState) × Rehearsal
  | 0, ops, r => Channel.runInTurn exchange ops r
  | fuel + 1, ops, r =>
    match ops.filterMap fun (limit, _, x) => request? limit x with
    | [] => Channel.runInTurn exchange ops r
    | requests =>
      let (as, r) := r.askAll requests
      rounds fuel (resume ops as) r

/-- How many requests an operation of a client makes at most. -/
def requestsPerOperation : Nat := 2

/-- What a command reaches in a rehearsal. It listens to nothing. -/
def outside : Outside Rehearsal where
  channel :=
    { link := exchange
      together := fun ops r =>
        let settled := ops.map fun (limit, observed, x) => (limit, settle observed x)
        rounds requestsPerOperation settled r }
  listen r := ([], r)
  readFile path r :=
    match r.ask (.content path) with
    | (some (.content bytes), r) => (bytes, r)
    | (_, r) => (.error .notFound, r)
  writeFile path bytes r :=
    match r.ask (.storage path bytes) with
    | (some (.storage result), r) => (result, r)
    | (_, r) => (.error .notFound, r)

end Rehearsal

end Canopen.Cli
