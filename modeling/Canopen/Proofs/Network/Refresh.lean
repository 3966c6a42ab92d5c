import Canopen.Proofs.Network.Registry
/-!
# Registries change by whole handles

A registry changes in one way only: nodes leave it, and nodes join it with a handle of which the cell is
new. Whoever stays keeps the very same handle, and nothing that has been observed is touched
(`Network.Evolves`). The reply to a request for the nodes therefore either brings the registry to hold
the nodes of the reply, or is an error and changes nothing (`Session.listing`).
-/
namespace Canopen

namespace Observations

theorem get_of_length_le {o : Observations} {cell : Nat} (h : o.states.length ≤ cell) :
    o.get cell = .initializing := by
  rw [get, List.getD_eq_getElem?_getD, List.getElem?_eq_none h, Option.getD_none]

end Observations

namespace SortedMap

/-- The ids of a map are known by which ones they are. -/
theorem keys_eq_of_mem_iff {α : Type} {m : NodeMap α} {ids : List UInt8} (hids : ids.Pairwise (· < ·))
    (h : ∀ node, m.contains node ↔ node ∈ ids) : m.keys = ids := by
  have : Std.Antisymm fun a b : UInt8 => a < b := ⟨fun _ _ hab hba => absurd hba (UInt8.lt_asymm hab)⟩
  have : Std.Irrefl fun a b : UInt8 => a < b := ⟨UInt8.lt_irrefl⟩
  have hkeys : m.keys.Pairwise (· < ·) := List.pairwise_map.mpr m.rising
  exact hkeys.eq_of_mem_iff hids fun node => mem_keys.trans (h node)

end SortedMap

namespace Network

variable {n n' n'' : Network} {o o' o'' : Observations}

theorem handle?_of_filterKeys {keep : UInt8 → Bool} {node : UInt8} {h : Handle}
    (hnode : ({ n with handles := n.handles.filterKeys keep } : Network).handle? node = some h) :
    n.handle? node = some h := by
  simp only [handle?, SortedMap.get?_filterKeys] at hnode
  split at hnode
  · exact hnode
  · contradiction

/-- Holds where a registry has come of another one, nodes joining and leaving. -/
structure Evolves (n : Network) (o : Observations) (n' : Network) (o' : Observations) : Prop where
  limit_eq : n'.limit = n.limit
  get_eq : ∀ cell, o'.get cell = o.get cell
  length_le : o.states.length ≤ o'.states.length
  /-- A handle has been there before, or it has come with its node and has a new cell. -/
  joins : ∀ node h, n'.handle? node = some h → n.handle? node = some h ∨
    h.node = node ∧ h.limit = n.limit ∧ o.states.length ≤ h.cell ∧ h.cell < o'.states.length
  /-- Nodes that have come have cells of their own. -/
  apart : ∀ node h node' h', n.handle? node ≠ some h → n.handle? node' ≠ some h' →
    n'.handle? node = some h → n'.handle? node' = some h' → h.cell = h'.cell → node = node'

namespace Evolves

theorem refl (n : Network) (o : Observations) : Evolves n o n o where
  limit_eq := rfl
  get_eq _ := rfl
  length_le := Nat.le_refl _
  joins _ _ h := .inl h
  apart _ _ _ _ hnew _ h _ _ := absurd h hnew

theorem trans (h : Evolves n o n' o') (h' : Evolves n' o' n'' o'') : Evolves n o n'' o'' where
  limit_eq := h'.limit_eq.trans h.limit_eq
  get_eq cell := (h'.get_eq cell).trans (h.get_eq cell)
  length_le := Nat.le_trans h.length_le h'.length_le
  joins node a ha := by
    have hle := h.length_le
    have hle' := h'.length_le
    rcases h'.joins node a ha with hmid | ⟨hnode, hlimit, hlow, hhigh⟩
    · refine (h.joins node a hmid).imp_right fun ⟨hnode, hlimit, hlow, hhigh⟩ => ?_
      exact ⟨hnode, hlimit, hlow, by omega⟩
    · exact .inr ⟨hnode, hlimit.trans h.limit_eq, by omega, hhigh⟩
  apart node a node' b hnew hnew' ha hb hcell := by
    -- a node that comes later has a cell beyond those of the nodes that have come before
    have hbefore : ∀ {node : UInt8} {a : Handle}, n.handle? node ≠ some a → n'.handle? node = some a →
        a.cell < o'.states.length := fun hnew hmid =>
      ((h.joins _ _ hmid).resolve_left hnew).2.2.2
    have hlater : ∀ {node : UInt8} {a : Handle}, n'.handle? node ≠ some a →
        n''.handle? node = some a → o'.states.length ≤ a.cell := fun hmid ha =>
      ((h'.joins _ _ ha).resolve_left hmid).2.2.1
    by_cases hmid : n'.handle? node = some a
    · by_cases hmid' : n'.handle? node' = some b
      · exact h.apart node a node' b hnew hnew' hmid hmid' hcell
      · have hlow := hlater hmid' hb
        have hhigh := hbefore hnew hmid
        omega
    · by_cases hmid' : n'.handle? node' = some b
      · have hlow := hlater hmid ha
        have hhigh := hbefore hnew' hmid'
        omega
      · exact h'.apart node a node' b hmid hmid' ha hb hcell

theorem add (n : Network) (o : Observations) (node : UInt8) :
    Evolves n o (n.add o node).2.1 (n.add o node).2.2 := by
  unfold Network.add
  split
  · exact refl n o
  · have hget : ∀ other h, (n.handles.insert node (o.newHandle node n.limit).1).get? other = some h →
        n.handle? other = some h ∨ other = node ∧ h = (o.newHandle node n.limit).1 := by
      intro other h hother
      rw [SortedMap.get?_insert] at hother
      split at hother
      · cases hother
        exact .inr ⟨‹_›, rfl⟩
      · exact .inl hother
    refine ⟨rfl, o.get_newHandle node n.limit, ?_, fun other h hother => ?_, ?_⟩
    · simp [Observations.newHandle]
    · refine (hget other h hother).imp_right ?_
      rintro ⟨rfl, rfl⟩
      simp [Observations.newHandle]
    · intro a h b h' hnew hnew' ha hb _
      rw [((hget a h ha).resolve_left hnew).1, ((hget b h' hb).resolve_left hnew').1]

theorem addAll (n : Network) (o : Observations) (ids : List UInt8) :
    Evolves n o (n.addAll o ids).1 (n.addAll o ids).2 := by
  induction ids generalizing n o with
  | nil => exact refl n o
  | cons node rest ih => exact (add n o node).trans (ih _ _)

theorem filterKeys (n : Network) (o : Observations) (keep : UInt8 → Bool) :
    Evolves n o { n with handles := n.handles.filterKeys keep } o where
  limit_eq := rfl
  get_eq _ := rfl
  length_le := Nat.le_refl _
  joins _ _ hnode := .inl (handle?_of_filterKeys hnode)
  apart _ _ _ _ hnew _ hnode _ _ := absurd (handle?_of_filterKeys hnode) hnew

theorem refresh (n : Network) (o : Observations) (ids : List UInt8) :
    Evolves n o (n.refresh o ids).1 (n.refresh o ids).2 := (filterKeys n o _).trans (addAll _ _ ids)

theorem update (n : Network) (o : Observations) (answer : Answer) :
    Evolves n o (n.update o answer).2.1 (n.update o answer).2.2 := by
  unfold Network.update
  split
  · exact refresh n o _
  · exact refl n o

end Evolves

theorem handle?_addAll_of_some {node : UInt8} {h : Handle} (hnode : n.handle? node = some h)
    (o : Observations) (ids : List UInt8) : (n.addAll o ids).1.handle? node = some h := by
  induction ids generalizing n o with
  | nil => exact hnode
  | cons other rest ih => exact ih (handle?_add_of_some hnode o other) _

theorem isSome_handle?_addAll (n : Network) (o : Observations) (ids : List UInt8) (node : UInt8) :
    ((n.addAll o ids).1.handle? node).isSome ↔ (n.handle? node).isSome ∨ node ∈ ids := by
  induction ids generalizing n o with
  | nil => simp [addAll]
  | cons other rest ih =>
    rw [addAll, ih, handle?_add, List.mem_cons]
    split <;> simp [*]

theorem handle?_filter (n : Network) (ids : List UInt8) (node : UInt8) :
    ({ n with handles := n.handles.filterKeys ids.contains } : Network).handle? node =
      if node ∈ ids then n.handle? node else none := by
  simp only [handle?, SortedMap.get?_filterKeys, List.contains_iff_mem]

theorem handle?_refresh_of_mem {node : UInt8} {h : Handle} (hnode : n.handle? node = some h)
    (o : Observations) {ids : List UInt8} (hmem : node ∈ ids) :
    (n.refresh o ids).1.handle? node = some h := by
  refine handle?_addAll_of_some ?_ o ids
  rw [handle?_filter, if_pos hmem, hnode]

theorem isSome_handle?_refresh (n : Network) (o : Observations) (ids : List UInt8) (node : UInt8) :
    ((n.refresh o ids).1.handle? node).isSome ↔ node ∈ ids := by
  rw [refresh, isSome_handle?_addAll, handle?_filter]
  split <;> simp [*]

/-- A node that is registered before and after a reply has kept its handle. -/
theorem handle?_update_eq {node : UInt8} {h h' : Handle} {answer : Answer}
    (hnode : n.handle? node = some h) (hnode' : (n.update o answer).2.1.handle? node = some h') :
    h' = h := by
  unfold update at hnode'
  split at hnode'
  · rename_i ids _
    have hmem := (isSome_handle?_refresh n o ids node).mp (Option.isSome_of_eq_some hnode')
    exact Option.some.inj (hnode'.symm.trans (handle?_refresh_of_mem hnode o hmem))
  · exact Option.some.inj (hnode'.symm.trans hnode)

theorem mem_sortedNodes {node : UInt8} {ids : List UInt8} : node ∈ sortedNodes ids ↔ node ∈ ids := by
  have hfold : ∀ m : NodeMap Unit,
      (ids.foldl (fun m id => m.insert id ()) m).contains node ↔ m.contains node ∨ node ∈ ids := by
    induction ids with
    | nil => simp
    | cons id rest ih =>
      intro m
      rw [List.foldl_cons, ih, SortedMap.contains, SortedMap.get?_insert, List.mem_cons]
      split <;> simp [SortedMap.contains, *]
  rw [sortedNodes, SortedMap.mem_keys, hfold]
  simp [SortedMap.contains]

theorem nodes_refresh (n : Network) (o : Observations) {ids : List UInt8}
    (hids : ids.Pairwise (· < ·)) : (n.refresh o ids).1.nodes = ids :=
  SortedMap.keys_eq_of_mem_iff hids (isSome_handle?_refresh n o ids)

end Network

namespace Session

variable {σ : Type}

/-- Holds of sessions of which the second one comes of the first one when the registry is made to hold
certain nodes. -/
structure Refreshed (s s' : Session) (ids : List UInt8) : Prop where
  nodes_eq : s'.network.nodes = ids
  limit_eq : s'.network.limit = s.network.limit
  /-- Nodes that stay keep the very same handle. -/
  stays : ∀ node ∈ ids, ∀ h, s.network.handle? node = some h → s'.network.handle? node = some h
  observed_eq : ∀ h, s'.observed h = s.observed h
  /-- Nodes that join have a handle with a cell that is new. -/
  joins : ∀ node ∈ ids, s.network.handle? node = none → ∃ h, s'.network.handle? node = some h ∧
    h.node = node ∧ h.limit = s.network.limit ∧ s.observations.states.length ≤ h.cell

theorem refreshed (s : Session) {ids : List UInt8} (hids : ids.Pairwise (· < ·)) :
    Refreshed s ⟨(s.network.refresh s.observations ids).1, (s.network.refresh s.observations ids).2⟩
      ids := by
  have h := Network.Evolves.refresh s.network s.observations ids
  refine ⟨Network.nodes_refresh _ _ hids, h.limit_eq, fun node hmem a ha => ?_,
    fun a => h.get_eq a.cell, fun node hmem hnone => ?_⟩
  · exact Network.handle?_refresh_of_mem ha _ hmem
  · have hsome := (Network.isSome_handle?_refresh s.network s.observations ids node).mpr hmem
    obtain ⟨a, ha⟩ := Option.isSome_iff_exists.mp hsome
    rcases h.joins node a ha with hold | ⟨hnode, hlimit, hcell, -⟩
    · rw [hnone] at hold
      contradiction
    · exact ⟨a, ha, hnode, hlimit, hcell⟩

/-- The courses that asking for the nodes can take: the answer, the result and the session
afterwards. -/
inductive Listing (s : Session) : Answer → Except ClientError (List UInt8) → Session → Prop
  | refreshed {replied ids : List UInt8} {s' : Session} (sorted : ids.Pairwise (· < ·))
      (mem_iff : ∀ node, node ∈ ids ↔ node ∈ replied) (after : Refreshed s s' ids) :
      Listing s (.ok (.nodes replied)) (.ok ids) s'
  | failed (e : LinkError) : Listing s (.error e) (.error (.link e)) s
  | refused (why : Refusal) : Listing s (.ok (.refusal why)) (.error (.refused why)) s
  | unexpected {reply : Reply} (notNodes : ∀ ids, reply ≠ .nodes ids)
      (notRefusal : ∀ why, reply ≠ .refusal why) : Listing s (.ok reply) (.error (.unexpected reply)) s

/-- Asking for the nodes takes one of these courses over any channel, by the answer of the link. -/
theorem listing (ch : Channel σ) (s : Session) (w : σ) :
    let (answer, w') := ch.link s.network.limit .listNodes w
    let (r, s', w'') := s.listNodes ch w
    Listing s answer r s' ∧ w'' = w' := by
  unfold listNodes
  rcases ch.link s.network.limit .listNodes w with ⟨answer, w'⟩
  refine ⟨?_, rfl⟩
  cases answer with
  | error e => exact .failed e
  | ok reply =>
    cases reply with
    | refusal why => exact .refused why
    | nodes replied =>
      have hsorted := Network.pairwise_sortedNodes replied
      exact .refreshed hsorted (fun _ => Network.mem_sortedNodes) (s.refreshed hsorted)
    | _ => exact .unexpected (fun _ => nofun) fun _ => nofun

end Session

end Canopen
