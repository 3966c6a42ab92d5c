import Canopen.ClientError
/-!
# Operations

What a client does for one node: a tree of requests, each with what follows on every answer. An
operation can look at the state last observed of its node and note a new one. How the requests of
several operations follow one another is left to whoever runs them.
-/
namespace Canopen

/-- The answer of a link to a request. -/
abbrev Answer := Except LinkError Reply

inductive Operation (α : Type) where
  | done (a : α)
  | ask (request : Request) (next : Answer → Operation α)
  | look (next : NodeState → Operation α)
  | note (state : NodeState) (next : Operation α)

/-- A link: what it answers to a request, given a time limit, and what becomes of it. -/
abbrev Link (σ : Type) := Duration → Request → σ → Answer × σ

namespace Operation

variable {α β σ : Type}

def bind (x : Operation α) (f : α → Operation β) : Operation β :=
  match x with
  | done a => f a
  | ask request next => ask request fun answer => (next answer).bind f
  | look next => look fun state => (next state).bind f
  | note state next => note state (next.bind f)

def map (f : α → β) (x : Operation α) : Operation β := x.bind fun a => done (f a)

instance : Monad Operation where
  pure := done
  bind := bind

/-- The result of an operation that uses a link alone, with the state observed last. -/
def run (link : Link σ) (limit : Duration) : Operation α → NodeState → σ → α × NodeState × σ
  | done a, observed, s => (a, observed, s)
  | ask request next, observed, s =>
    let (answer, s) := link limit request s
    (next answer).run link limit observed s
  | look next, observed, s => (next observed).run link limit observed s
  | note state next, _, s => next.run link limit state s

@[simp] theorem done_bind (a : α) (f : α → Operation β) : (done a).bind f = f a := rfl

@[simp] theorem bind_done (x : Operation α) : x.bind done = x := by
  induction x with
  | done a => rfl
  | ask request next ih => simp [bind, ih]
  | look next ih => simp [bind, ih]
  | note state next ih => simp [bind, ih]

theorem run_bind (link : Link σ) (limit : Duration) (x : Operation α) (f : α → Operation β)
    (observed : NodeState) (s : σ) :
    (x.bind f).run link limit observed s =
      let (a, observed, s) := x.run link limit observed s
      (f a).run link limit observed s := by
  induction x generalizing observed s with
  | done a => rfl
  | ask request next ih => simp [bind, run, ih]
  | look next ih => simp [bind, run, ih]
  | note state next ih => simp [bind, run, ih]

end Operation

end Canopen
