import Canopen.Proofs.Operation.Interleaving
/-!
# Operations read off their exchanges

What an operation comes to is settled by the answers to its own requests (`Operation.replay`). A link
that keeps what is exchanged therefore tells afterwards what each of several operations has come to,
whatever the turns they have taken and whatever has been answered to the others: it is read off the
exchanges about its node (`Channel.exists_interleave_logged`).
-/
namespace Canopen

variable {α σ : Type} {link : Link σ}

abbrev Exchange := Request × Answer

/-- A link that keeps what is exchanged, in order. -/
def Link.logged (link : Link σ) : Link (σ × List Exchange) := fun limit r (s, log) =>
  let (answer, s) := link limit r s
  (answer, s, log ++ [(r, answer)])

/-- The exchanges of a series that are about a node. -/
def exchangesAbout (node : UInt8) (t : List Exchange) : List Exchange :=
  t.filter fun e => e.1.node? = some node

theorem exchangesAbout_eq_nil {node : UInt8} {t : List Exchange}
    (h : ∀ e ∈ t, e.1.node? ≠ some node) : exchangesAbout node t = [] :=
  List.filter_eq_nil_iff.mpr fun e he => by simpa using h e he

/-- Exchanges about a node, and further ones. -/
theorem exchangesAbout_append_own {node : UInt8} {t : List Exchange}
    (h : ∀ e ∈ t, e.1.node? = some node) (t' : List Exchange) :
    exchangesAbout node (t ++ t') = t ++ exchangesAbout node t' := by
  have hself : exchangesAbout node t = t :=
    List.filter_eq_self.mpr fun e he => by simpa using h e he
  exact (List.filter_append ..).trans (congrArg (· ++ exchangesAbout node t') hself)

/-- Exchanges about another node, and further ones. -/
theorem exchangesAbout_append_other {node other : UInt8} {t : List Exchange}
    (h : ∀ e ∈ t, e.1.node? = some other) (hne : node ≠ other) (t' : List Exchange) :
    exchangesAbout node (t ++ t') = exchangesAbout node t' := by
  have hnil : exchangesAbout node t = [] := by
    refine exchangesAbout_eq_nil fun e he heq => hne ?_
    exact Option.some.inj (heq.symm.trans (h e he))
  exact (List.filter_append ..).trans (congrArg (· ++ exchangesAbout node t') hnil)

namespace Operation

/-- What an operation comes to, and the state observed last, where the exchanges are exactly its own. -/
def replay : Operation α → NodeState → List Exchange → Option (α × NodeState)
  | done a, observed, [] => some (a, observed)
  | done _, _, _ :: _ => none
  | ask _ _, _, [] => none
  | ask r next, observed, e :: t => if e.1 = r then (next e.2).replay observed t else none
  | look next, observed, t => (next observed).replay observed t
  | note state next, _, t => next.replay state t

/-- What an operation comes to over a link is read off what it exchanges. -/
theorem exists_run_logged {P : Request → Prop} {x : Operation α} (hx : x.Asks P) (link : Link σ)
    (limit : Duration) (observed : NodeState) (s : σ) (log : List Exchange) :
    ∃ t, (∀ e ∈ t, P e.1) ∧
      (x.run link.logged limit observed (s, log)).2.2.2 = log ++ t ∧
      x.replay observed t = some ((x.run link.logged limit observed (s, log)).1,
        (x.run link.logged limit observed (s, log)).2.1) := by
  induction x generalizing observed s log with
  | done a => exact ⟨[], by simp, by simp [run], rfl⟩
  | ask r next ih =>
    obtain ⟨hr, hnext⟩ := hx
    rcases hlink : link limit r s with ⟨answer, s'⟩
    obtain ⟨t, hP, hlog, hreplay⟩ := ih answer (hnext answer) observed s' (log ++ [(r, answer)])
    refine ⟨(r, answer) :: t, List.forall_mem_cons.mpr ⟨hr, hP⟩, ?_, ?_⟩
    · simp only [run, Link.logged, hlink]
      rw [hlog, List.append_assoc, List.singleton_append]
    · simp only [run, Link.logged, hlink, replay, if_true]
      exact hreplay
  | look next ih => exact ih observed (hx observed) observed s log
  | note state next ih => exact ih hx state s log

end Operation

namespace Underway

variable {node : UInt8} {u : Underway α}

/-- What an operation under way comes to where the exchanges are exactly those still to be had. -/
def replay (t : List Exchange) (u : Underway α) : Option (α × NodeState) := u.2.2.replay u.2.1 t

/-- Holds of operations that only ask for a node. -/
def KeepsTo (node : UInt8) (u : Underway α) : Prop := u.2.2.Asks fun r => r.node? = some node

/-- An action is one exchange, or none. -/
theorem KeepsTo.exists_act_logged (h : u.KeepsTo node) (link : Link σ) (s : σ) (log : List Exchange) :
    ∃ t, (∀ e ∈ t, e.1.node? = some node) ∧ (u.act link.logged (s, log)).2.2 = log ++ t ∧
      (u.act link.logged (s, log)).1.KeepsTo node ∧
      ∀ t', u.replay (t ++ t') = (u.act link.logged (s, log)).1.replay t' := by
  obtain ⟨limit, observed, x⟩ := u
  cases x with
  | done a => exact ⟨[], by simp, (List.append_nil log).symm, h, fun _ => rfl⟩
  | ask r next =>
    refine ⟨[(r, (link limit r s).1)], List.forall_mem_singleton.mpr h.1, rfl, h.2 _, fun t' => ?_⟩
    simp only [replay, List.singleton_append, Operation.replay, if_true]
    rfl
  | look next => exact ⟨[], by simp, (List.append_nil log).symm, h observed, fun _ => rfl⟩
  | note state next => exact ⟨[], by simp, (List.append_nil log).symm, h, fun _ => rfl⟩

end Underway

namespace Channel

open Underway

variable {ps : List (UInt8 × Underway α)}

/-- Lists are mapped to the same where only one element differs, and it makes no difference. -/
theorem map_set_eq {γ : Type} {l : List α} {i : Nat} {a b : α} (hi : l[i]? = some a) {f g : α → γ}
    (hf : f b = g a) (hne : ∀ j c, i ≠ j → l[j]? = some c → f c = g c) :
    (l.set i b).map f = l.map g := by
  refine List.ext_getElem? fun j => ?_
  simp only [List.getElem?_map, List.getElem?_set]
  by_cases hij : i = j
  · subst hij
    obtain ⟨hlt, -⟩ := List.getElem?_eq_some_iff.mp hi
    simp only [hlt, hi, if_true, Option.map_some, hf]
  · rw [if_neg hij]
    cases hj : l[j]? with
    | none => rfl
    | some c => exact congrArg some (hne j c hij hj)

/-- Holds of outcomes that are read off the exchanges, each off those about the node of its operation,
where all exchanges are about one of these nodes. -/
structure ToldBy (ps : List (UInt8 × Underway α)) (outcomes : List (α × NodeState))
    (t : List Exchange) : Prop where
  about : ∀ e ∈ t, ∃ p ∈ ps, e.1.node? = some p.1
  outcomes_eq : outcomes.map some = ps.map fun p => p.2.replay (exchangesAbout p.1 t)

variable {outcomes : List (α × NodeState)} {t t' : List Exchange} {node : UInt8}

/-- A whole operation, ahead of those for other nodes. -/
theorem ToldBy.cons {u : Underway α} {outcome : α × NodeState} (hnot : node ∉ ps.map Prod.fst)
    (habout : ∀ e ∈ t, e.1.node? = some node) (hreplay : u.replay t = some outcome)
    (h : ToldBy ps outcomes t') : ToldBy ((node, u) :: ps) (outcome :: outcomes) (t ++ t') := by
  have hne : ∀ q ∈ ps, q.1 ≠ node := fun q hq heq => hnot (List.mem_map.mpr ⟨q, hq, heq⟩)
  constructor
  · intro e he
    rcases List.mem_append.mp he with he | he
    · exact ⟨_, List.mem_cons_self .., habout e he⟩
    · obtain ⟨q, hq, heq⟩ := h.about e he
      exact ⟨q, List.mem_cons_of_mem _ hq, heq⟩
  · -- what the others exchange is not about this node, and the other way round
    have hown : exchangesAbout node (t ++ t') = t := by
      rw [exchangesAbout_append_own habout, exchangesAbout_eq_nil, List.append_nil]
      intro e he heq
      obtain ⟨q, hq, hnode⟩ := h.about e he
      exact hne q hq (Option.some.inj (hnode.symm.trans heq))
    have hothers : ∀ q ∈ ps, exchangesAbout q.1 (t ++ t') = exchangesAbout q.1 t' :=
      fun q hq => exchangesAbout_append_other habout (hne q hq) t'
    rw [List.map_cons, List.map_cons, hown, hreplay, h.outcomes_eq]
    exact congrArg _ (List.map_congr_left fun q hq => congrArg q.2.replay (hothers q hq).symm)

/-- An action of one of the operations, ahead of what is still to be done. -/
theorem ToldBy.act {i : Nat} {u u' : Underway α} (hnodes : (ps.map Prod.fst).Nodup)
    (hi : ps[i]? = some (node, u)) (habout : ∀ e ∈ t, e.1.node? = some node)
    (hreplay : ∀ t', u.replay (t ++ t') = u'.replay t')
    (h : ToldBy (ps.set i (node, u')) outcomes t') : ToldBy ps outcomes (t ++ t') := by
  have hmem := List.mem_of_getElem? hi
  constructor
  · intro e he
    rcases List.mem_append.mp he with he | he
    · exact ⟨_, hmem, habout e he⟩
    · obtain ⟨q, hq, heq⟩ := h.about e he
      rcases List.mem_or_eq_of_mem_set hq with hq | rfl
      · exact ⟨q, hq, heq⟩
      · exact ⟨_, hmem, heq⟩
  · rw [h.outcomes_eq]
    refine map_set_eq hi ?_ fun j q hij hj => ?_
    · dsimp only
      rw [exchangesAbout_append_own habout, hreplay]
    · have hlt := (List.getElem?_eq_some_iff.mp hi).1
      have hne : q.1 ≠ node := fun heq =>
        hij ((List.getElem?_inj (by simpa using hlt) hnodes).mp (by simp [hi, hj, heq]))
      rw [exchangesAbout_append_other habout hne]

theorem exists_runInTurn_logged (hnodes : (ps.map Prod.fst).Nodup)
    (hps : ∀ p ∈ ps, p.2.KeepsTo p.1) (link : Link σ) (s : σ) (log : List Exchange) :
    ∃ t, (runInTurn link.logged (ps.map Prod.snd) (s, log)).2.2 = log ++ t ∧
      ToldBy ps (runInTurn link.logged (ps.map Prod.snd) (s, log)).1 t := by
  induction ps generalizing s log with
  | nil => exact ⟨[], (List.append_nil log).symm, by simp, rfl⟩
  | cons p rest ih =>
    obtain ⟨node, limit, observed, x⟩ := p
    obtain ⟨hnot, hrest⟩ := List.nodup_cons.mp hnodes
    obtain ⟨hx, hasks⟩ := List.forall_mem_cons.mp hps
    obtain ⟨t, habout, hlog, hreplay⟩ := Operation.exists_run_logged hx link limit observed s log
    rcases hrun : x.run link.logged limit observed (s, log) with ⟨a, observed', s', log'⟩
    rw [hrun] at hlog hreplay
    dsimp only at hlog hreplay
    subst hlog
    obtain ⟨t', hlog', htold⟩ := ih hrest hasks s' (log ++ t)
    rw [List.map_cons, runInTurn_cons]
    simp only [alone, after, hrun]
    exact ⟨t ++ t', hlog'.trans (List.append_assoc ..), htold.cons hnot habout hreplay⟩

/-- Whatever the turns of operations for different nodes, what each of them comes to is read off the
exchanges about its node. -/
theorem exists_interleave_logged (hnodes : (ps.map Prod.fst).Nodup)
    (hps : ∀ p ∈ ps, p.2.KeepsTo p.1) (link : Link σ) (turns : List Nat) (s : σ)
    (log : List Exchange) :
    ∃ t, (interleave link.logged turns (ps.map Prod.snd) (s, log)).2.2 = log ++ t ∧
      ToldBy ps (interleave link.logged turns (ps.map Prod.snd) (s, log)).1 t := by
  unfold interleave
  induction turns generalizing ps s log with
  | nil => exact exists_runInTurn_logged hnodes hps link s log
  | cons i turns ih =>
    rw [takeTurns, List.getElem?_map]
    rcases hi : ps[i]? with _ | ⟨node, u⟩
    · exact ih hnodes hps s log
    · obtain ⟨t, habout, hlog, hkeeps, hreplay⟩ :=
        (hps _ (List.mem_of_getElem? hi)).exists_act_logged link s log
      rcases hact : u.act link.logged (s, log) with ⟨u', s', log'⟩
      rw [hact] at hlog hkeeps hreplay
      dsimp only at hlog hkeeps hreplay
      subst hlog
      have hnodes' : (ps.set i (node, u')).map Prod.fst = ps.map Prod.fst :=
        map_set_eq hi rfl fun _ _ _ _ => rfl
      have hps' : ∀ q ∈ ps.set i (node, u'), q.2.KeepsTo q.1 := by
        intro q hq
        rcases List.mem_or_eq_of_mem_set hq with hq | rfl
        · exact hps q hq
        · exact hkeeps
      obtain ⟨t', hlog', htold⟩ := ih (hnodes' ▸ hnodes) hps' s' (log ++ t)
      rw [List.map_set] at hlog' htold
      simp only [Option.map_some, hact]
      exact ⟨t ++ t', hlog'.trans (List.append_assoc ..), htold.act hnodes hi habout hreplay⟩

end Channel

end Canopen
