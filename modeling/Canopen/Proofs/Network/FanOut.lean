import Canopen.Proofs.Client.Exchanges
import Canopen.Proofs.Network.Refresh
/-!
# Operations on all nodes account for every node

What is done with all registered nodes is done with each of them once, and what comes of it is told
under the node: it is what the operation with this node alone comes to where its requests get the
answers they have got (`Session.every_node_accounted`).
-/
namespace Canopen

/-- Elements of a list, each with what a function gives for it. -/
theorem of_mem_zip_of_map_eq {α β : Type} {f : α → Option β} {l : List α} {l' : List β}
    (h : l'.map some = l.map f) : ∀ x ∈ l.zip l', f x.1 = some x.2 := by
  induction l generalizing l' with
  | nil => simp
  | cons a l ih =>
    cases l' with
    | nil => simp
    | cons b l' =>
      obtain ⟨hb, hrest⟩ := List.cons.inj h
      exact List.forall_mem_cons.mpr ⟨hb.symm, ih hrest⟩

namespace Session

open Client

variable {α σ τ : Type} {s : Session}

def handles (s : Session) : List Handle := s.network.handles.toList.map Prod.snd

theorem mem_handles {h : Handle} : h ∈ s.handles ↔ ∃ node, s.network.handle? node = some h := by
  simp only [handles, List.mem_map, Prod.exists, exists_eq_right, SortedMap.mem_toList, Network.handle?]

theorem map_node_handles (hmade : s.network.Made) : s.handles.map (·.node) = s.network.nodes := by
  rw [handles, List.map_map, ← hmade.nodes_eq]
  rfl

/-- Holds of what has come of a deed with all registered nodes: for each handle the outcome and the
state observed afterwards. They are read off the exchanges, all of which are about one of the nodes. -/
structure Deals (s : Session) (d : Deed α) (t : List Exchange)
    (rows : List (Handle × Except ClientError α × NodeState)) : Prop where
  handles_eq : rows.map Prod.fst = s.handles
  replay_eq : ∀ x ∈ rows, (d.attempt x.1.node).replay (s.observed x.1)
    (exchangesAbout x.1.node t) = some x.2
  about : ∀ e ∈ t, ∃ h ∈ s.handles, e.1.node? = some h.node

theorem performAll_eq_handles (ch : Channel σ) (op : UInt8 → Operation α) (s : Session) (w : σ) :
    s.performAll ch op w =
      let (outcomes, w) := ch.together (s.handles.map fun h => (h.limit, s.observed h, op h.node)) w
      ((s.handles.zip outcomes).map fun x => (x.1.node, x.2.1),
        s.observeAll ((s.handles.zip outcomes).map fun x => (x.1, x.2.2)), w) := by
  rw [performAll, ← handles]
  simp only [List.zip_map_left, List.zip_map_right, List.map_map]
  rfl

theorem exists_deals (hmade : s.network.Made) (d : Deed α) (link : Link σ) (turns : List Nat) (w : σ)
    (log : List Exchange) :
    ∃ t rows w', Deals s d t rows ∧
      s.performAll (Channel.byTurns link.logged turns) d.attempt (w, log) =
        (rows.map fun x => (x.1.node, x.2.1), s.observeAll (rows.map fun x => (x.1, x.2.2)),
          w', log ++ t) := by
  let underway (h : Handle) : Underway (Except ClientError α) :=
    (h.limit, s.observed h, d.attempt h.node)
  have hfst : (s.handles.map fun h => (h.node, underway h)).map Prod.fst = s.network.nodes := by
    rw [List.map_map, ← map_node_handles hmade]
    rfl
  have hsnd : (s.handles.map fun h => (h.node, underway h)).map Prod.snd = s.handles.map underway :=
    List.map_map ..
  have hkeeps : ∀ p ∈ s.handles.map fun h => (h.node, underway h), p.2.KeepsTo p.1 :=
    List.forall_mem_map.mpr fun h _ => d.asks h.node
  obtain ⟨t, hlog, habout, houtcomes⟩ :=
    Channel.exists_interleave_logged (hfst ▸ SortedMap.nodup_keys _) hkeeps link turns w log
  rw [hsnd] at hlog houtcomes
  rw [performAll_eq_handles]
  simp only [Channel.byTurns]
  rcases hrun : Channel.interleave link.logged turns (s.handles.map underway) (w, log) with
    ⟨outcomes, w', log'⟩
  rw [hrun] at hlog houtcomes
  dsimp only at hlog houtcomes
  subst hlog
  have hlength : outcomes.length = s.handles.length := by
    simpa using congrArg List.length houtcomes
  refine ⟨t, s.handles.zip outcomes, w', ⟨?_, ?_, ?_⟩, rfl⟩
  · exact List.map_fst_zip (Nat.le_of_eq hlength.symm)
  · exact of_mem_zip_of_map_eq (houtcomes.trans (List.map_map ..))
  · intro e he
    obtain ⟨p, hp, hnode⟩ := habout e he
    obtain ⟨h, hh, rfl⟩ := List.mem_map.mp hp
    exact ⟨h, hh, hnode⟩

/-- Holds of outcomes that account for every registered node by what has been exchanged. -/
structure Accounts (s : Session) (d : Deed α) (results : List (UInt8 × Except ClientError α))
    (t : List Exchange) : Prop where
  keys_eq : results.map Prod.fst = s.network.nodes
  about : ∀ e ∈ t, ∃ node ∈ s.network.nodes, e.1.node? = some node
  /-- The outcome of a node is what the operation with it comes to by its own exchanges. -/
  own : ∀ node h, s.network.handle? node = some h → ∃ r state, results.lookup node = some r ∧
    (d.attempt node).replay (s.observed h) (exchangesAbout node t) = some (r, state)
  /-- It is that of the operation with this node alone, over any link with the same answers. -/
  alone : ∀ node h, s.network.handle? node = some h → ∀ {τ : Type} (link : Link τ) (w : τ),
    let (r, _, _, t') := s.perform (Channel.inTurn link.logged) h d.attempt (w, [])
    t' = exchangesAbout node t → results.lookup node = some r

theorem Deals.accounts {d : Deed α} {t : List Exchange}
    {rows : List (Handle × Except ClientError α × NodeState)} (hmade : s.network.Made)
    (hrows : Deals s d t rows) : Accounts s d (rows.map fun x => (x.1.node, x.2.1)) t := by
  have hkeys : (rows.map fun x => (x.1.node, x.2.1)).map Prod.fst = s.network.nodes := by
    rw [← map_node_handles hmade, ← hrows.handles_eq, List.map_map, List.map_map]
    rfl
  have hrising : Rising (rows.map fun x => (x.1.node, x.2.1)) := by
    have hnodes : s.network.nodes.Pairwise (· < ·) := List.pairwise_map.mpr s.network.handles.rising
    exact List.pairwise_map.mp (hkeys ▸ hnodes)
  have hown : ∀ node h, s.network.handle? node = some h → ∃ r state,
      (rows.map fun x => (x.1.node, x.2.1)).lookup node = some r ∧
        (d.attempt node).replay (s.observed h) (exchangesAbout node t) = some (r, state) := by
    intro node h hnode
    have hh : h ∈ rows.map Prod.fst := hrows.handles_eq ▸ mem_handles.mpr ⟨node, hnode⟩
    obtain ⟨x, hx, rfl⟩ := List.mem_map.mp hh
    obtain rfl := hmade.named node x.1 hnode
    refine ⟨x.2.1, x.2.2, ?_, hrows.replay_eq x hx⟩
    exact (SortedMap.lookup_eq_some_iff_mem hrising).mpr (List.mem_map_of_mem hx)
  refine ⟨hkeys, fun e he => ?_, hown, fun node h hnode τ link w ht => ?_⟩
  · obtain ⟨h, hh, hnode⟩ := hrows.about e he
    exact ⟨h.node, map_node_handles hmade ▸ List.mem_map_of_mem hh, hnode⟩
  · obtain ⟨r, state, hlookup, hreplay⟩ := hown node h hnode
    obtain ⟨t', -, hlog, hreplay'⟩ :=
      Operation.exists_run_logged (d.asks h.node) link h.limit (s.observed h) w []
    obtain rfl := hmade.named node h hnode
    -- the exchanges are the same, and the outcome is read off them
    obtain rfl : t' = exchangesAbout h.node t := hlog.symm.trans ht
    rw [hreplay] at hreplay'
    cases hreplay'
    exact hlookup

/-- The registry and what is done with all its nodes account for every node. Asking for the nodes makes
the registry hold exactly those of the reply, or is an error and leaves it as it is. A deed with all
nodes comes to one outcome for each registered node, whatever the turns of the requests, and this is
the outcome of the deed with this node alone. -/
theorem every_node_accounted :
    (∀ {σ : Type} (ch : Channel σ) (s : Session) (w : σ),
      let (answer, w') := ch.link s.network.limit .listNodes w
      let (r, s', w'') := s.listNodes ch w
      Listing s answer r s' ∧ w'' = w') ∧
    ∀ {σ α : Type} (link : Link σ) (turns : List Nat) (d : Deed α) (s : Session) (w : σ),
      s.network.Made →
        let (results, s', _, t) := s.performAll (Channel.byTurns link.logged turns) d.attempt (w, [])
        s'.network = s.network ∧ Accounts s d results t := by
  refine ⟨fun ch s w => s.listing ch w, fun link turns d s w hmade => ?_⟩
  obtain ⟨t, rows, w', hrows, hall⟩ := exists_deals hmade d link turns w []
  rw [hall]
  exact ⟨network_observeAll s _, hrows.accounts hmade⟩

/-- A reset of two nodes of which only the first one is answered, and of the second one alone. -/
theorem every_node_accounted_halfSilent :
    let network := (((({ limit := ⟨50⟩ } : Network).add {} 1).2.1).add {} 2).2.1
    let s : Session := { network }
    let link : Link Unit := fun limit r _ =>
      (if r.node? = some 1 then .ok .ack else .error (.silent (.node limit)), ())
    let (results, _, _, t) :=
      s.performAll (Channel.byTurns link.logged [1]) (Deed.command .reset).attempt ((), [])
    results = [(1, .ok ()), (2, .error (.link (.silent (.node ⟨50⟩))))] ∧
      Accounts s (.command .reset) results t ∧ ∃ h, s.network.handle? 2 = some h ∧
        results.lookup 2 =
          some (s.perform (Channel.inTurn link.logged) h (Deed.command .reset).attempt ((), [])).1 := by
  intro network s link
  have hmade : network.Made := .add (.add (.new ⟨50⟩) {} 1) {} 2
  have haccounts := (every_node_accounted.2 link [1] (.command .reset) s () hmade).2
  exact ⟨rfl, haccounts, _, rfl, haccounts.alone 2 _ rfl link () rfl⟩

end Session

end Canopen
