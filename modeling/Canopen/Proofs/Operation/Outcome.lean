import Canopen.Operation
/-!
# What operations can come to

An operation is a tree of requests, so what can come of it over any link is read off the tree: the
outcomes it has whatever is answered (`Operation.Yields`), and those it has before and behind its
first request (`Operation.Splits`). A link that keeps the requests handed to it tells which of these a
run has come to (`Operation.Splits.recorded`). Two links that answer alike bring an operation to one
outcome (`Operation.run_simulation`).
-/
namespace Canopen

/-- A link that keeps the requests handed to it, in order. -/
def Link.recorded {σ : Type} (link : Link σ) : Link (σ × List Request) := fun limit r (s, asked) =>
  let (answer, s) := link limit r s
  (answer, s, asked ++ [r])

namespace Operation

variable {α β σ : Type}

/-- Holds of operations of which every outcome has a property, whatever the answers and the state
observed. -/
def Yields (P : α → Prop) : Operation α → Prop
  | done a => P a
  | ask _ next => ∀ answer, (next answer).Yields P
  | look next => ∀ state, (next state).Yields P
  | note _ next => next.Yields P

theorem Yields.bind {P : α → Prop} {Q : β → Prop} {x : Operation α} {f : α → Operation β}
    (hx : x.Yields P) (hf : ∀ a, P a → (f a).Yields Q) : (x.bind f).Yields Q := by
  induction x with
  | done a => exact hf a hx
  | ask request next ih => exact fun answer => ih answer (hx answer)
  | look next ih => exact fun state => ih state (hx state)
  | note state next ih => exact ih hx

/-- Over any link an operation comes to one of the outcomes in its tree. -/
theorem Yields.run {P : α → Prop} {x : Operation α} (hx : x.Yields P) (link : Link σ)
    (limit : Duration) (observed : NodeState) (s : σ) : P (x.run link limit observed s).1 := by
  induction x generalizing observed s with
  | done a => exact hx
  | ask request next ih => exact ih _ (hx _) observed _
  | look next ih => exact ih observed (hx observed) observed s
  | note state next ih => exact ih hx state s

/-- Holds of operations whose outcomes have one property where nothing has been asked, and another
one behind the first request. -/
def Splits (early late : α → Prop) : Operation α → Prop
  | done a => early a
  | ask _ next => ∀ answer, (next answer).Yields late
  | look next => ∀ state, (next state).Splits early late
  | note _ next => next.Splits early late

theorem Splits.bind {early late : α → Prop} {early' late' : β → Prop} {x : Operation α}
    {f : α → Operation β} (hx : x.Splits early late) (he : ∀ a, early a → (f a).Splits early' late')
    (hl : ∀ a, late a → (f a).Yields late') : (x.bind f).Splits early' late' := by
  induction x with
  | done a => exact he a hx
  | ask request next ih => exact fun answer => Yields.bind (hx answer) hl
  | look next ih => exact fun state => ih state (hx state)
  | note state next ih => exact ih hx

theorem isPrefix_recorded (x : Operation α) (link : Link σ) (limit : Duration)
    (observed : NodeState) (s : σ) (asked : List Request) :
    asked <+: (x.run (Link.recorded link) limit observed (s, asked)).2.2.2 := by
  induction x generalizing observed s asked with
  | done a => exact List.prefix_rfl
  | ask request next ih => exact (List.prefix_append asked [request]).trans (ih _ observed _ _)
  | look next ih => exact ih observed observed s asked
  | note state next ih => exact ih state s asked

/-- Which of the two properties an outcome has tells whether something has been asked. -/
theorem Splits.recorded {early late : α → Prop} {x : Operation α} (hx : x.Splits early late)
    (link : Link σ) (limit : Duration) (observed : NodeState) (s : σ) :
    let (a, _, _, asked) := x.run (Link.recorded link) limit observed (s, [])
    asked = [] ∧ early a ∨ asked ≠ [] ∧ late a := by
  induction x generalizing observed s with
  | done a => exact .inl ⟨rfl, hx⟩
  | ask request next ih =>
    have hlate := (hx (link limit request s).1).run (Link.recorded link) limit observed
      ((link limit request s).2, [request])
    have hasked := isPrefix_recorded (next (link limit request s).1) link limit observed
      (link limit request s).2 [request]
    exact .inr ⟨hasked.ne_nil (List.cons_ne_nil request []), hlate⟩
  | look next ih => exact ih observed (hx observed) observed s
  | note state next ih => exact ih hx state s

/-- Links that answer alike, and go on doing so, bring an operation to the same outcome. -/
theorem run_simulation {τ : Type} {R : σ → τ → Prop} {link : Link σ} {link' : Link τ}
    (h : ∀ limit r s t, R s t →
      (link limit r s).1 = (link' limit r t).1 ∧ R (link limit r s).2 (link' limit r t).2)
    (x : Operation α) (limit : Duration) (observed : NodeState) {s : σ} {t : τ} (hst : R s t) :
    (x.run link limit observed s).1 = (x.run link' limit observed t).1 ∧
      (x.run link limit observed s).2.1 = (x.run link' limit observed t).2.1 ∧
        R (x.run link limit observed s).2.2 (x.run link' limit observed t).2.2 := by
  induction x generalizing observed s t with
  | done a => exact ⟨rfl, rfl, hst⟩
  | ask request next ih =>
    obtain ⟨hanswer, hafter⟩ := h limit request s t hst
    simp only [run, hanswer]
    exact ih _ observed hafter
  | look next ih => exact ih observed observed hst
  | note state next ih => exact ih state hst

/-- To keep the requests makes no difference to an operation. -/
theorem run_recorded_fst (x : Operation α) (link : Link σ) (limit : Duration) (observed : NodeState)
    (s : σ) (asked : List Request) :
    (x.run link.recorded limit observed (s, asked)).1 = (x.run link limit observed s).1 := by
  have hstep (limit : Duration) (r : Request) (t : σ × List Request) (s : σ) (hts : t.1 = s) :
      (link.recorded limit r t).1 = (link limit r s).1 ∧
        (link.recorded limit r t).2.1 = (link limit r s).2 := by
    subst hts
    exact ⟨rfl, rfl⟩
  exact (run_simulation hstep x limit observed rfl).1

end Operation

end Canopen
