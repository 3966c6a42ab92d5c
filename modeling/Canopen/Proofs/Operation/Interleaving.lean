import Mathlib.Data.List.Pairwise
import Canopen.Network
/-!
# Operations that do not see one another

Requests commute on a link if neither changes the answer to the other and it makes no difference which
one comes first. Operations that only ask requests commuting with one another's come to the same however
their requests are interleaved, and however they are carried out one after another
(`Channel.interleave_eq`, `Channel.foldl_after_of_perm`).
-/
namespace Canopen

variable {α β σ : Type} {link : Link σ}

/-- Holds of requests that make no difference to one another. -/
structure Link.Commute (link : Link σ) (r r' : Request) : Prop where
  first : ∀ limit limit' s, (link limit r (link limit' r' s).2).1 = (link limit r s).1
  second : ∀ limit limit' s, (link limit' r' (link limit r s).2).1 = (link limit' r' s).1
  after : ∀ limit limit' s,
    (link limit' r' (link limit r s).2).2 = (link limit r (link limit' r' s).2).2

theorem Link.Commute.symm {r r' : Request} (h : link.Commute r r') : link.Commute r' r :=
  ⟨fun limit limit' s => h.second limit' limit s, fun limit limit' s => h.first limit' limit s,
    fun limit limit' s => (h.after limit' limit s).symm⟩

namespace Operation

/-- Holds of operations that only ask requests with a property, whatever the answers and the state
observed. -/
def Asks (P : Request → Prop) : Operation α → Prop
  | done _ => True
  | ask r next => P r ∧ ∀ answer, (next answer).Asks P
  | look next => ∀ state, (next state).Asks P
  | note _ next => next.Asks P

theorem Asks.bind {P : Request → Prop} {x : Operation α} {f : α → Operation β} (hx : x.Asks P)
    (hf : ∀ a, (f a).Asks P) : (x.bind f).Asks P := by
  induction x with
  | done a => exact hf a
  | ask r next ih => exact ⟨hx.1, fun answer => ih answer (hx.2 answer)⟩
  | look next ih => exact fun state => ih state (hx state)
  | note state next ih => exact ih hx

theorem Asks.map {P : Request → Prop} {x : Operation α} (hx : x.Asks P) (f : α → β) :
    (x.map f).Asks P := hx.bind fun _ => trivial

/-- Holds of operations of which all requests commute on a link. -/
def Apart (link : Link σ) (x : Operation α) (y : Operation β) : Prop :=
  ∃ P Q : Request → Prop, x.Asks P ∧ y.Asks Q ∧ ∀ r r', P r → Q r' → link.Commute r r'

theorem Apart.symm {x : Operation α} {y : Operation β} (h : Apart link x y) : Apart link y x := by
  obtain ⟨P, Q, hx, hy, hcomm⟩ := h
  exact ⟨Q, P, hy, hx, fun r r' hr hr' => (hcomm r' r hr' hr).symm⟩

/-- A request that commutes with those of an operation can be put off until the operation has ended. -/
theorem run_link {Q : Request → Prop} {y : Operation β} {r : Request} (hy : y.Asks Q)
    (hcomm : ∀ r', Q r' → link.Commute r r') (limit limit' : Duration) (observed : NodeState) (s : σ) :
    let (b, observed', s') := y.run link limit' observed s
    y.run link limit' observed (link limit r s).2 = (b, observed', (link limit r s').2) ∧
      (link limit r s').1 = (link limit r s).1 := by
  induction y generalizing observed s with
  | done b => exact ⟨rfl, rfl⟩
  | ask r' next ih =>
    obtain ⟨hr', hnext⟩ := hy
    have hstep := hcomm r' hr'
    have hrest := ih (link limit' r' s).1 (hnext _) observed (link limit' r' s).2
    simp only [run, hstep.second limit limit' s, hstep.after limit limit' s]
    rw [hstep.first limit limit' s] at hrest
    exact hrest
  | look next ih => exact ih observed (hy observed) observed s
  | note state next ih => exact ih hy state s

/-- An operation comes to the same before and after one that it is apart from. -/
theorem Apart.run_run {x : Operation α} {y : Operation β} (h : Apart link x y)
    (limit limit' : Duration) (observed observed' : NodeState) (s : σ) :
    let (b, state, s') := y.run link limit' observed' s
    y.run link limit' observed' (x.run link limit observed s).2.2 =
      (b, state, (x.run link limit observed s').2.2) := by
  obtain ⟨P, Q, hx, hy, hcomm⟩ := h
  induction x generalizing observed s with
  | done a => rfl
  | ask r next ih =>
    obtain ⟨hr, hnext⟩ := hx
    have hlate := run_link hy (fun r' hr' => hcomm r r' hr hr') limit limit' observed' s
    have hrest := ih (link limit r s).1 observed (link limit r s).2 (hnext _)
    -- the first request is put off behind the other operation, the rest by induction
    simp only [run]
    rw [hlate.1] at hrest
    rw [hlate.2]
    exact hrest
  | look next ih => exact ih observed observed s (hx observed)
  | note state next ih => exact ih state s hx

theorem run_map (x : Operation α) (f : α → β) (link : Link σ) (limit : Duration)
    (observed : NodeState) (s : σ) :
    (x.map f).run link limit observed s =
      let (a, observed, s) := x.run link limit observed s
      (f a, observed, s) := run_bind link limit x _ observed s

end Operation

/-- An operation under way, with its time limit and the state last observed of its node. -/
abbrev Underway (α : Type) := Duration × NodeState × Operation α

namespace Underway

/-- The next action of an operation over a link: a request, a look or a note. -/
def act (link : Link σ) (u : Underway α) (s : σ) : Underway α × σ :=
  match u with
  | (limit, observed, .ask r next) =>
    let (answer, s) := link limit r s
    ((limit, observed, next answer), s)
  | (limit, observed, .look next) => ((limit, observed, next observed), s)
  | (limit, _, .note state next) => ((limit, state, next), s)
  | (limit, observed, .done a) => ((limit, observed, .done a), s)

/-- What an operation comes to if nothing else comes in between. -/
def alone (link : Link σ) (s : σ) (u : Underway α) : α × NodeState :=
  let (a, observed, _) := u.2.2.run link u.1 u.2.1 s
  (a, observed)

/-- What becomes of a link when an operation is carried out without anything else in between. -/
def after (link : Link σ) (s : σ) (u : Underway α) : σ := (u.2.2.run link u.1 u.2.1 s).2.2

/-- Holds of operations that only ask requests commuting with one another's. -/
def Apart (link : Link σ) (u v : Underway α) : Prop := u.2.2.Apart link v.2.2

variable {u v : Underway α} {us : List (Underway α)}

/-- An action is the beginning of what is still to be done. -/
theorem alone_act (link : Link σ) (u : Underway α) (s : σ) :
    alone link (u.act link s).2 (u.act link s).1 = alone link s u ∧
      after link (u.act link s).2 (u.act link s).1 = after link s u := by
  obtain ⟨limit, observed, x⟩ := u
  cases x <;> exact ⟨rfl, rfl⟩

theorem Apart.symm (h : Apart link u v) : Apart link v u := Operation.Apart.symm h

theorem Apart.act (h : Apart link u v) (s : σ) : Apart link (u.act link s).1 v := by
  obtain ⟨limit, observed, x⟩ := u
  obtain ⟨P, Q, hx, hv, hcomm⟩ := h
  cases x with
  | done a => exact ⟨P, Q, hx, hv, hcomm⟩
  | ask r next => exact ⟨P, Q, hx.2 _, hv, hcomm⟩
  | look next => exact ⟨P, Q, hx observed, hv, hcomm⟩
  | note state next => exact ⟨P, Q, hx, hv, hcomm⟩

/-- An action can be put off until an operation apart from it has ended. -/
theorem Apart.act_after (h : Apart link u v) (s : σ) :
    alone link (u.act link s).2 v = alone link s v ∧
      u.act link (after link s v) = ((u.act link s).1, after link (u.act link s).2 v) := by
  obtain ⟨limit, observed, x⟩ := u
  obtain ⟨limit', observed', y⟩ := v
  obtain ⟨P, Q, hx, hy, hcomm⟩ := h
  cases x with
  | ask r next =>
    have hlate := Operation.run_link hy (fun r' hr' => hcomm r r' hx.1 hr') limit limit' observed' s
    simp only [alone, after, Underway.act]
    rw [hlate.1, hlate.2]
    exact ⟨rfl, rfl⟩
  | _ => exact ⟨rfl, rfl⟩

theorem Apart.alone_after (h : Apart link u v) (s : σ) :
    alone link (after link s u) v = alone link s v := by
  have hrun := Operation.Apart.run_run h u.1 v.1 u.2.1 v.2.1 s
  simp only [alone, after]
  rw [hrun]

theorem Apart.after_after (h : Apart link u v) (s : σ) :
    after link (after link s u) v = after link (after link s v) u := by
  have hrun := Operation.Apart.run_run h u.1 v.1 u.2.1 v.2.1 s
  simp only [after]
  rw [hrun]

/-- Operations stay apart from one another when one of them acts. -/
theorem pairwise_act (h : us.Pairwise (Apart link)) {i : Nat} (hi : us[i]? = some u) (s : σ) :
    (us.set i (u.act link s).1).Pairwise (Apart link) := by
  induction us generalizing i with
  | nil => exact h
  | cons v rest ih =>
    obtain ⟨hv, hrest⟩ := List.pairwise_cons.mp h
    cases i with
    | zero =>
      cases hi
      exact List.pairwise_cons.mpr ⟨fun w hw => (hv w hw).act s, hrest⟩
    | succ i =>
      have hu : Apart link v u := hv u (List.mem_of_getElem? hi)
      refine List.pairwise_cons.mpr ⟨fun w hw => ?_, ih hrest hi⟩
      rcases List.mem_or_eq_of_mem_set hw with hw | rfl
      · exact hv w hw
      · exact (hu.symm.act s).symm

end Underway

namespace Channel

open Underway

variable {us order : List (Underway α)}

/-- Lets one operation after another do its next action. Every order in which the actions of operations
can follow one another comes of such turns. -/
def takeTurns (link : Link σ) : List Nat → List (Underway α) → σ → List (Underway α) × σ
  | [], us, s => (us, s)
  | i :: turns, us, s =>
    match us[i]? with
    | none => takeTurns link turns us s
    | some u =>
      let (u, s) := u.act link s
      takeTurns link turns (us.set i u) s

/-- Carries out operations by turns. What is left after the last turn is done in turn. -/
def interleave (link : Link σ) (turns : List Nat) (us : List (Underway α)) (s : σ) :
    List (α × NodeState) × σ :=
  let (us, s) := takeTurns link turns us s
  runInTurn link us s

/-- The channel that carries out several operations by turns. -/
def byTurns (link : Link σ) (turns : List Nat) : Channel σ where
  link := link
  together := interleave link turns

theorem runInTurn_cons (link : Link σ) (u : Underway α) (us : List (Underway α)) (s : σ) :
    runInTurn link (u :: us) s =
      (alone link s u :: (runInTurn link us (after link s u)).1,
        (runInTurn link us (after link s u)).2) := rfl

/-- What an operation does first can as well be done when its turn comes. -/
theorem runInTurn_set {u : Underway α} (h : us.Pairwise (Apart link)) {i : Nat} (hi : us[i]? = some u)
    (s : σ) : runInTurn link (us.set i (u.act link s).1) (u.act link s).2 = runInTurn link us s := by
  induction us generalizing i s with
  | nil => contradiction
  | cons v rest ih =>
    obtain ⟨hv, hrest⟩ := List.pairwise_cons.mp h
    cases i with
    | zero =>
      cases hi
      obtain ⟨halone, hafter⟩ := alone_act link u s
      rw [List.set_cons_zero, runInTurn_cons, runInTurn_cons, halone, hafter]
    | succ i =>
      -- the operation in front does not see the action, which might as well come behind it
      have hu : Apart link u v := (hv u (List.mem_of_getElem? hi)).symm
      obtain ⟨halone, hact⟩ := hu.act_after s
      have hlate := ih hrest hi (after link s v)
      rw [hact] at hlate
      rw [List.set_cons_succ, runInTurn_cons, runInTurn_cons, halone, hlate]

/-- Whatever the turns, operations that are apart come to what they come to in turn. -/
theorem interleave_eq (h : us.Pairwise (Apart link)) (turns : List Nat) (s : σ) :
    interleave link turns us s = runInTurn link us s := by
  unfold interleave
  induction turns generalizing us s with
  | nil => rfl
  | cons i turns ih =>
    rw [takeTurns]
    cases hi : us[i]? with
    | none => exact ih h s
    | some u =>
      have hstep := runInTurn_set h hi s
      exact (ih (pairwise_act h hi s) _).trans hstep

/-- In turn, each of the operations comes to what it comes to alone. -/
theorem runInTurn_eq (h : us.Pairwise (Apart link)) (s : σ) :
    runInTurn link us s = (us.map (alone link s), us.foldl (after link) s) := by
  induction us generalizing s with
  | nil => rfl
  | cons u rest ih =>
    obtain ⟨hu, hrest⟩ := List.pairwise_cons.mp h
    have houtcomes : rest.map (alone link (after link s u)) = rest.map (alone link s) :=
      List.map_congr_left fun v hv => (hu v hv).alone_after s
    rw [runInTurn_cons, ih hrest, houtcomes]
    rfl

/-- The order of operations that are apart makes no difference to what becomes of the link. -/
theorem foldl_after_of_perm (h : us.Pairwise (Apart link)) (horder : order.Perm us) (s : σ) :
    order.foldl (after link) s = us.foldl (after link) s := by
  have hsymm : Std.Symm fun u v : Underway α =>
      ∀ s, after link (after link s u) v = after link (after link s v) u :=
    ⟨fun u v huv s => (huv s).symm⟩
  have hall := List.Pairwise.forall_of_forall (fun u _ s => rfl)
    (h.imp fun huv s => Apart.after_after huv s)
  refine (horder.symm.foldl_eq' (fun u hu v hv s => ?_) s).symm
  exact hall hu hv s

end Channel

namespace Session

open Underway

/-- What is handed to a channel to carry out an operation on every registered node. -/
def underways (s : Session) (op : UInt8 → Operation α) : List (Underway α) :=
  s.network.handles.toList.map fun p => (p.2.limit, s.observed p.2, op p.2.node)

variable {s : Session} {op : UInt8 → Operation α}

theorem performAll_eq (ch : Channel σ) (op : UInt8 → Operation α) (s : Session) (w : σ) :
    s.performAll ch op w =
      let handles := s.network.handles.toList.map Prod.snd
      let (outcomes, w) := ch.together (s.underways op) w
      ((handles.map (·.node)).zip (outcomes.map Prod.fst),
        s.observeAll (handles.zip (outcomes.map Prod.snd)), w) := by
  rw [underways, ← Function.comp_def (fun h : Handle => (h.limit, s.observed h, op h.node)) Prod.snd,
    ← List.map_map]
  rfl

/-- On registered nodes whose operations are apart, each comes to what it comes to alone, whatever the
turns. -/
theorem performAll_byTurns (h : (s.underways op).Pairwise (Apart link)) (turns : List Nat) (w : σ) :
    s.performAll (Channel.byTurns link turns) op w = s.performAll (Channel.inTurn link) op w ∧
      (s.performAll (Channel.inTurn link) op w).1 = s.network.handles.toList.map fun p =>
        (p.2.node, ((op p.2.node).run link p.2.limit (s.observed p.2) w).1) := by
  constructor
  · rw [performAll_eq, performAll_eq]
    simp only [Channel.byTurns, Channel.inTurn, Channel.interleave_eq h]
  · rw [performAll_eq]
    simp only [Channel.inTurn, Channel.runInTurn_eq h]
    simp only [underways, List.map_map, List.zip_map']
    rfl

end Session

end Canopen
