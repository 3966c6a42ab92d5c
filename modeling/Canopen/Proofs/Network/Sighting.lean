import Canopen.Proofs.Network.FanOut
/-!
# States seen through handles

Copies of a handle share a cell, so what has been seen through one of them is observed through all of
them: in every cell there is the state seen last through one of its handles, if there is any
(`Session.Sound`). Registering nodes and taking them out keeps this, and so does noting what has been
seen, through one handle or through those of all nodes at once.
-/
namespace Canopen

/-- A state with the handle through which it has been seen. -/
abbrev Sighting := Handle × NodeState

theorem mem_map_toList {h : Handle} {sight? : Option NodeState} {p : Sighting} :
    p ∈ sight?.toList.map (fun state => (h, state)) ↔ p.1 = h ∧ sight? = some p.2 := by
  obtain ⟨a, state⟩ := p
  simp only [List.mem_map, Option.mem_toList, Prod.mk.injEq]
  constructor
  · rintro ⟨s, hs, rfl, rfl⟩
    exact ⟨rfl, hs⟩
  · rintro ⟨rfl, hs⟩
    exact ⟨state, hs, rfl, rfl⟩

/-- The state seen last through the handles of a cell. -/
def lastSeen? (cell : Nat) (seen : List Sighting) : Option NodeState :=
  (seen.filter fun p => p.1.cell = cell).getLast?.map Prod.snd

theorem lastSeen?_append (cell : Nat) (seen seen' : List Sighting) :
    lastSeen? cell (seen ++ seen') = (lastSeen? cell seen').or (lastSeen? cell seen) := by
  rw [lastSeen?, List.filter_append, List.getLast?_append, Option.map_or]
  rfl

theorem exists_mem_of_lastSeen? {cell : Nat} {seen : List Sighting} {state : NodeState}
    (h : lastSeen? cell seen = some state) : ∃ a, (a, state) ∈ seen ∧ a.cell = cell := by
  obtain ⟨p, hp, rfl⟩ := Option.map_eq_some_iff.mp h
  obtain ⟨hmem, hcell⟩ := List.mem_filter.mp (List.mem_of_getLast? hp)
  exact ⟨p.1, hmem, of_decide_eq_true hcell⟩

/-- What is seen through one handle is seen in its cell. -/
theorem lastSeen?_toList (cell : Nat) (h : Handle) (sight? : Option NodeState) :
    lastSeen? cell (sight?.toList.map fun state => (h, state)) =
      if h.cell = cell then sight? else none := by
  cases sight? with
  | none => simp [lastSeen?]
  | some state => by_cases hcell : h.cell = cell <;> simp [lastSeen?, hcell]

namespace Session

variable {s : Session} {given : List Handle} {seen : List Sighting}

/-- Noting states through other cells changes nothing. -/
theorem observed_observeAll_of_ne {pairs : List Sighting} {h : Handle}
    (hne : ∀ p ∈ pairs, p.1.cell ≠ h.cell) : (s.observeAll pairs).observed h = s.observed h := by
  induction pairs generalizing s with
  | nil => rfl
  | cons p rest ih =>
    obtain ⟨hp, hrest⟩ := List.forall_mem_cons.mp hne
    exact (ih hrest).trans (Observations.get_set_ne hp.symm _ _)

/-- What is noted through handles with cells of their own is observed. -/
theorem observed_observeAll_of_mem {pairs : List Sighting}
    (hcells : ∀ p ∈ pairs, p.1.cell < s.observations.states.length)
    (hapart : pairs.Pairwise fun p q => p.1.cell ≠ q.1.cell) {h : Handle} {state : NodeState}
    (hmem : (h, state) ∈ pairs) : (s.observeAll pairs).observed h = state := by
  induction pairs generalizing s with
  | nil => contradiction
  | cons p rest ih =>
    obtain ⟨hp, hrest⟩ := List.forall_mem_cons.mp hcells
    obtain ⟨hne, hpairs⟩ := List.pairwise_cons.mp hapart
    rcases List.mem_cons.mp hmem with rfl | hmem
    · have hlater := observed_observeAll_of_ne (s := s.observe h state) fun q hq => (hne q hq).symm
      exact hlater.trans (Observations.get_set_self hp state)
    · exact ih (fun q hq => (hrest q hq).trans_eq (Observations.length_set ..).symm) hpairs hmem

/-- Holds of sessions that observe what has been seen last, where handles have been given out. -/
structure Sound (s : Session) (given : List Handle) (seen : List Sighting) : Prop where
  made : s.network.Made
  bounded : ∀ h ∈ s.handles ++ given, h.cell < s.observations.states.length
  /-- Handles share a cell only if they are of one node. -/
  node_eq : ∀ h ∈ s.handles ++ given, ∀ h' ∈ s.handles ++ given, h.cell = h'.cell → h.node = h'.node
  seen_bounded : ∀ p ∈ seen, p.1.cell < s.observations.states.length
  latest : ∀ h, s.observed h = (lastSeen? h.cell seen).getD .initializing

theorem Sound.start (limit : Duration) : Sound { network := { limit } } [] [] where
  made := .new limit
  bounded := by simp [handles, SortedMap.empty]
  node_eq := by simp [handles, SortedMap.empty]
  seen_bounded := by simp
  latest h := Observations.get_of_length_le (Nat.zero_le _)

/-- Registered nodes have cells of their own. -/
theorem Sound.pairwise_handles (hs : Sound s given seen) :
    s.handles.Pairwise fun h h' => h.cell ≠ h'.cell := by
  have hnodes : (s.handles.map (·.node)).Nodup := by
    rw [map_node_handles hs.made]
    exact SortedMap.nodup_keys _
  refine (List.pairwise_map.mp hnodes).imp_of_mem fun hmem hmem' hne hcell => hne ?_
  exact hs.node_eq _ (List.mem_append_left _ hmem) _ (List.mem_append_left _ hmem') hcell

/-- The state observed through a handle changes only to what has newly been seen in its cell. -/
theorem Sound.exists_of_ne {s' : Session} {given' : List Handle} {new : List Sighting}
    (hs : Sound s given seen) (hs' : Sound s' given' (seen ++ new)) {h : Handle}
    (hne : s'.observed h ≠ s.observed h) : ∃ a, (a, s'.observed h) ∈ new ∧ a.cell = h.cell := by
  have hlatest := hs'.latest h
  rw [lastSeen?_append] at hlatest
  cases hnew : lastSeen? h.cell new with
  | none =>
    rw [hnew, Option.none_or, ← hs.latest h] at hlatest
    exact absurd hlatest hne
  | some state =>
    rw [hnew, Option.some_or, Option.getD_some] at hlatest
    rw [hlatest]
    exact exists_mem_of_lastSeen? hnew

/-- A handle that is known afterwards has been known before, or its node has joined with it. -/
theorem known_or_joined {s' : Session} {given' : List Handle}
    (hgiven : ∀ h ∈ given', h ∈ s.handles ++ given ∨ ∃ node, s'.network.handle? node = some h)
    {h : Handle} (hmem : h ∈ s'.handles ++ given') : h ∈ s.handles ++ given ∨
      ∃ node, s'.network.handle? node = some h ∧ s.network.handle? node ≠ some h := by
  have hor : h ∈ s.handles ++ given ∨ ∃ node, s'.network.handle? node = some h := by
    rcases List.mem_append.mp hmem with hmem | hmem
    · exact .inr (mem_handles.mp hmem)
    · exact hgiven h hmem
  refine hor.elim .inl fun ⟨node, hnode⟩ => ?_
  by_cases hold : s.network.handle? node = some h
  · exact .inl (List.mem_append_left _ (mem_handles.mpr ⟨node, hold⟩))
  · exact .inr ⟨node, hnode, hold⟩

/-- Nodes may join and leave, and handles of nodes may be given out. -/
theorem Sound.evolve {s' : Session} {given' : List Handle} (hs : Sound s given seen)
    (hmade : s'.network.Made)
    (he : Network.Evolves s.network s.observations s'.network s'.observations)
    (hgiven : ∀ h ∈ given', h ∈ s.handles ++ given ∨ ∃ node, s'.network.handle? node = some h) :
    Sound s' given' seen := by
  have hle := he.length_le
  constructor
  case made => exact hmade
  case bounded =>
    intro h hmem
    rcases known_or_joined hgiven hmem with hold | ⟨node, hnode, hnew⟩
    · exact Nat.lt_of_lt_of_le (hs.bounded h hold) hle
    · exact ((he.joins node h hnode).resolve_left hnew).2.2.2
  case node_eq =>
    -- the cell of a handle that has joined lies beyond those of the handles known before
    intro h hmem h' hmem' hcell
    rcases known_or_joined hgiven hmem with hold | ⟨node, hnode, hnew⟩
    · rcases known_or_joined hgiven hmem' with hold' | ⟨node', hnode', hnew'⟩
      · exact hs.node_eq h hold h' hold' hcell
      · have hlow := ((he.joins node' h' hnode').resolve_left hnew').2.2.1
        have hhigh := hs.bounded h hold
        omega
    · have hjoin := (he.joins node h hnode).resolve_left hnew
      rcases known_or_joined hgiven hmem' with hold' | ⟨node', hnode', hnew'⟩
      · have hhigh := hs.bounded h' hold'
        omega
      · have hjoin' := (he.joins node' h' hnode').resolve_left hnew'
        rw [hjoin.1, hjoin'.1]
        exact he.apart node h node' h' hnew hnew' hnode hnode' hcell
  case seen_bounded => exact fun p hp => Nat.lt_of_lt_of_le (hs.seen_bounded p hp) hle
  case latest => exact fun h => (he.get_eq h.cell).trans (hs.latest h)

/-- What is seen through a handle may be noted. -/
theorem Sound.observe (hs : Sound s given seen) {h : Handle}
    (hcell : h.cell < s.observations.states.length) (sight? : Option NodeState) :
    Sound (s.observe h (sight?.getD (s.observed h))) given
      (seen ++ sight?.toList.map fun state => (h, state)) := by
  constructor
  case made => exact hs.made
  case bounded => exact fun a ha => (hs.bounded a ha).trans_eq (Observations.length_set ..).symm
  case node_eq => exact hs.node_eq
  case seen_bounded =>
    intro p hp
    rw [Session.observe, Observations.length_set]
    rcases List.mem_append.mp hp with hp | hp
    · exact hs.seen_bounded p hp
    · obtain ⟨state, -, rfl⟩ := List.mem_map.mp hp
      exact hcell
  case latest =>
    intro a
    rw [lastSeen?_append, lastSeen?_toList, Session.observe, observed]
    by_cases ha : h.cell = a.cell
    · have hlatest := hs.latest h
      rw [← ha, Observations.get_set_self hcell, if_pos rfl, hlatest]
      cases sight? <;> rfl
    · rw [Observations.get_set_ne (Ne.symm ha), if_neg ha, Option.none_or]
      exact hs.latest a

/-- What is seen through handles with cells of their own may be noted for all of them. -/
theorem Sound.observeAll (hs : Sound s given seen) {rows : List (Handle × Option NodeState)}
    (hcells : ∀ x ∈ rows, x.1.cell < s.observations.states.length)
    (hapart : rows.Pairwise fun x y => x.1.cell ≠ y.1.cell) :
    Sound (s.observeAll (rows.map fun x => (x.1, x.2.getD (s.observed x.1)))) given
      (seen ++ rows.flatMap fun x => x.2.toList.map fun state => (x.1, state)) := by
  induction rows generalizing s seen with
  | nil =>
    rw [List.flatMap_nil, List.append_nil]
    exact hs
  | cons x rest ih =>
    obtain ⟨hx, hrest⟩ := List.forall_mem_cons.mp hcells
    obtain ⟨hne, hpairs⟩ := List.pairwise_cons.mp hapart
    have hstep := hs.observe hx x.2
    -- the others have other cells, so their states are still those from before
    have hsame : ∀ y ∈ rest, (y.1, y.2.getD (s.observed y.1)) =
        (y.1, y.2.getD ((s.observe x.1 (x.2.getD (s.observed x.1))).observed y.1)) := by
      intro y hy
      rw [Session.observe, observed, observed, Observations.get_set_ne (hne y hy).symm]
    rw [List.map_cons, List.map_congr_left hsame, List.flatMap_cons, ← List.append_assoc]
    exact ih hstep (fun y hy => (hrest y hy).trans_eq (Observations.length_set ..).symm) hpairs

section Deals

open Client

variable {α : Type} {d : Deed α} {t : List Exchange}
  {rows : List (Handle × Except ClientError α × NodeState)}

/-- What the outcomes of a deed with all registered nodes say about their states. -/
def sightings (s : Session) (d : Deed α) (results : List (UInt8 × Except ClientError α)) :
    List Sighting :=
  results.flatMap fun (node, r) =>
    match s.network.handle? node with
    | none => []
    | some h => (d.sighted? r).toList.map fun state => (h, state)

theorem Deals.handle?_eq (hmade : s.network.Made) (hrows : Deals s d t rows) :
    ∀ x ∈ rows, s.network.handle? x.1.node = some x.1 := by
  intro x hx
  have hmem : x.1 ∈ s.handles := hrows.handles_eq ▸ List.mem_map_of_mem hx
  obtain ⟨node, hnode⟩ := mem_handles.mp hmem
  rwa [hmade.named node x.1 hnode]

theorem Deals.sightings_eq (hmade : s.network.Made) (hrows : Deals s d t rows) :
    s.sightings d (rows.map fun x => (x.1.node, x.2.1)) =
      rows.flatMap fun x => (d.sighted? x.2.1).toList.map fun state => (x.1, state) := by
  rw [sightings, List.flatMap_map]
  refine List.flatMap_congr fun x hx => ?_
  simp only [hrows.handle?_eq hmade x hx]

/-- A state is learnt of a node where the daemon replies to the query about it with a known code. -/
theorem Deals.mem_sightings_iff (hmade : s.network.Made) (hrows : Deals s d t rows) {p : Sighting} :
    p ∈ s.sightings d (rows.map fun x => (x.1.node, x.2.1)) ↔
      d.isQuery ∧ p.1 ∈ s.handles ∧ ∃ code,
        exchangesAbout p.1.node t = [(.queryState p.1.node, .ok (.state code))] ∧
          NodeState.ofCode? code = some p.2 := by
  obtain ⟨h, state⟩ := p
  rw [hrows.sightings_eq hmade, ← hrows.handles_eq, List.mem_map]
  simp only [List.mem_flatMap, mem_map_toList]
  constructor
  · rintro ⟨x, hx, rfl, hstate⟩
    obtain ⟨hquery, hcode⟩ := ((Deed.replayed (hrows.replay_eq x hx)).sighted_iff state).mp hstate
    exact ⟨hquery, ⟨x, hx, rfl⟩, hcode⟩
  · rintro ⟨hquery, ⟨x, hx, rfl⟩, hcode⟩
    exact ⟨x, hx, rfl, ((Deed.replayed (hrows.replay_eq x hx)).sighted_iff state).mpr ⟨hquery, hcode⟩⟩

theorem Deals.cell_lt (hrows : Deals s d t rows) (hs : Sound s given seen) :
    ∀ x ∈ rows, x.1.cell < s.observations.states.length := fun x hx =>
  hs.bounded x.1 (List.mem_append_left _ (hrows.handles_eq ▸ List.mem_map_of_mem hx))

theorem Deals.pairwise_cells (hrows : Deals s d t rows) (hs : Sound s given seen) :
    rows.Pairwise fun x y => x.1.cell ≠ y.1.cell := by
  have hapart := hs.pairwise_handles
  rwa [← hrows.handles_eq, List.pairwise_map] at hapart

/-- What is seen in a deed with all registered nodes may be noted. -/
theorem Deals.sound (hrows : Deals s d t rows) (hs : Sound s given seen) :
    Sound (s.observeAll (rows.map fun x => (x.1, x.2.2))) given
      (seen ++ s.sightings d (rows.map fun x => (x.1.node, x.2.1))) := by
  have hobserve : rows.map (fun x => (x.1, x.2.2)) =
      (rows.map fun x => (x.1, d.sighted? x.2.1)).map fun x => (x.1, x.2.getD (s.observed x.1)) := by
    rw [List.map_map]
    exact List.map_congr_left fun x hx =>
      congrArg (x.1, ·) (Deed.replayed (hrows.replay_eq x hx)).observed_eq
  have hcells : ∀ x ∈ rows.map fun x => (x.1, d.sighted? x.2.1),
      x.1.cell < s.observations.states.length := List.forall_mem_map.mpr (hrows.cell_lt hs)
  have hsound := hs.observeAll hcells (List.pairwise_map.mpr (hrows.pairwise_cells hs))
  rwa [← hobserve, List.flatMap_map, ← hrows.sightings_eq hs.made] at hsound

/-- The state noted for a node in a deed with all registered nodes is observed afterwards. -/
theorem Deals.observed_eq (hrows : Deals s d t rows) (hs : Sound s given seen)
    {x : Handle × Except ClientError α × NodeState} (hx : x ∈ rows) :
    (s.observeAll (rows.map fun x => (x.1, x.2.2))).observed x.1 = x.2.2 :=
  observed_observeAll_of_mem (List.forall_mem_map.mpr (hrows.cell_lt hs))
    (List.pairwise_map.mpr (hrows.pairwise_cells hs)) (List.mem_map_of_mem hx)

end Deals

end Session

end Canopen
