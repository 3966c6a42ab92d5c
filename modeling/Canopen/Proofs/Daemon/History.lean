import Canopen.Proofs.Daemon.Store
/-!
# The daemon over whole runs

A daemon that serves nodes made from catalogs, over any requests and any failures shown and taken back
in between, is a faithful store: it holds the addresses of the catalogs with bytes of their sizes, it
gives back what was written last, what it refuses leaves no trace, and no node has a part in requests
to another one (`faithful_over_run`). What an entry holds is read off the requests and replies alone
(`stored?_takeAll`).
-/
namespace Canopen

/-- The bytes that an entry begins with. -/
def Entry.zeros (e : Entry) : List UInt8 := List.replicate (e.type.byteSize?.getD 0) 0

theorem NodeStore.get?_ofCatalog (c : Catalog) (a : Address) :
    (NodeStore.ofCatalog c).get? a = (c.get? a).map fun e => ⟨e.zeros, e.type.byteSize?⟩ := by
  have hlist : (NodeStore.ofCatalog c).entries =
      (c.byAddress.mapWithKey fun _ e => (⟨e.zeros, e.type.byteSize?⟩ : Stored)).toList := by
    simp only [ofCatalog, Catalog.entries, SortedMap.values, SortedMap.mapWithKey, List.map_map]
    refine List.map_congr_left fun p hp => ?_
    rw [Function.comp_apply, c.agree.own p.1 p.2 (SortedMap.mem_toList.mp hp)]
    rfl
  rw [get?, hlist]
  exact SortedMap.get?_mapWithKey ..

namespace Daemon

/-- A daemon with nodes that have been added one after another. -/
def serving (known : List (UInt8 × Catalog)) : Daemon :=
  known.foldl (fun d p => d.addNode p.1 p.2) {}

/-- The definition of an entry of a node in the catalog it was added with last. -/
def defined? (known : List (UInt8 × Catalog)) (node : UInt8) (a : Address) : Option Entry :=
  (known.reverse.lookup node).bind fun c => c.get? a

/-- What happens to a daemon: a request comes, or a failure is shown from now on or no more. -/
inductive Input where
  | request (r : Request)
  | inject (node : UInt8) (f : Failing)
  | clear (node : UInt8)
  deriving DecidableEq, Repr

def take (d : Daemon) : Input → Daemon
  | .request r => (d.handle r).2.1
  | .inject node f => d.inject node f
  | .clear node => d.clear node

def takeAll (d : Daemon) : List Input → Daemon
  | [] => d
  | i :: rest => (d.take i).takeAll rest

/-- The requests that come with what is replied to each, if anything. -/
def exchanges (d : Daemon) : List Input → List (Request × Option Reply)
  | [] => []
  | i :: rest =>
    match i with
    | .request r => (r, (d.handle r).1) :: (d.take i).exchanges rest
    | .inject _ _ | .clear _ => (d.take i).exchanges rest

/-- The bytes that an exchange has written to an entry, if it has. -/
def acknowledged? (node : UInt8) (a : Address) : Request × Option Reply → Option (List UInt8)
  | (.writeEntry n b data, some .ack) => if n = node ∧ b = a then some data else none
  | _ => none

/-- The bytes that were written last to an entry in a series of exchanges. -/
def lastWritten? (node : UInt8) (a : Address) (t : List (Request × Option Reply)) :
    Option (List UInt8) :=
  (t.filterMap (acknowledged? node a)).getLast?

variable {d : Daemon} {node : UInt8} {a : Address} {data : List UInt8}

theorem get?_nodes_addAll (known : List (UInt8 × Catalog)) (d : Daemon) (node : UInt8) :
    (known.foldl (fun d p => d.addNode p.1 p.2) d).nodes.get? node =
      ((known.reverse.lookup node).map NodeStore.ofCatalog).or (d.nodes.get? node) := by
  induction known generalizing d with
  | nil => rfl
  | cons p rest ih =>
    obtain ⟨n, c⟩ := p
    rw [List.foldl_cons, ih, List.reverse_cons, List.lookup_append, addNode, SortedMap.get?_insert]
    cases rest.reverse.lookup node with
    | some c => rfl
    | none =>
      by_cases hn : node = n
      · simp [hn]
      · simp [hn, lookup_cons_ne hn]

/-- At the beginning every entry of the catalogs is there, zero. -/
theorem stored?_serving (known : List (UInt8 × Catalog)) (node : UInt8) (a : Address) :
    (serving known).stored? node a =
      (defined? known node a).map fun e => ⟨e.zeros, e.type.byteSize?⟩ := by
  have hnode := get?_nodes_addAll known {} node
  have hnone : ({} : Daemon).nodes.get? node = none := rfl
  rw [hnone, Option.or_none] at hnode
  rw [stored?, serving, hnode, defined?]
  cases known.reverse.lookup node with
  | none => rfl
  | some c => exact NodeStore.get?_ofCatalog c a

theorem stored?_command (d : Daemon) (n : UInt8) (c : NodeCommand) (node : UInt8) (a : Address) :
    (d.command n c).1.stored? node a = d.stored? node a := by
  have hset (d : Daemon) (s : NodeState) : (d.setState n s).1.stored? node a = d.stored? node a := by
    simp only [stored?, setState, SortedMap.get?_modify]
    split <;> cases d.nodes.get? node <;> rfl
  unfold command
  split
  · simp only [hset]
  · exact hset d _

/-- A request leaves an entry as it is, unless it is a write to it that is acknowledged. -/
theorem stored?_handle (d : Daemon) (r : Request) (node : UInt8) (a : Address) :
    (d.handle r).2.1.stored? node a =
      (d.stored? node a).map fun e =>
        { e with data := (acknowledged? node a (r, (d.handle r).1)).getD e.data } := by
  have h := d.handling r
  generalize d.handle r = out at h ⊢
  cases h with
  | @written n b data =>
    rw [stored?_put]
    by_cases ht : n = node ∧ b = a
    · obtain ⟨rfl, rfl⟩ := ht
      simp [acknowledged?]
    · have ht' : ¬(node = n ∧ a = b) := fun h => ht ⟨h.1.symm, h.2.symm⟩
      simp [acknowledged?, ht, ht']
  | commanded => simp [acknowledged?, stored?_command]
  | _ => simp [acknowledged?]

/-- Whatever happens, an entry holds what was written to it last, or what it held at first. -/
theorem stored?_takeAll (d : Daemon) (inputs : List Input) (node : UInt8) (a : Address) :
    (d.takeAll inputs).stored? node a =
      (d.stored? node a).map fun e =>
        { e with data := (lastWritten? node a (d.exchanges inputs)).getD e.data } := by
  induction inputs generalizing d with
  | nil => simp [takeAll, exchanges, lastWritten?]
  | cons i rest ih =>
    rw [takeAll, ih]
    cases i with
    | request r =>
      rw [take, stored?_handle, Option.map_map]
      refine congrArg (Option.map · (d.stored? node a)) (funext fun e => ?_)
      simp only [Function.comp_apply, exchanges, lastWritten?, take]
      cases hack : acknowledged? node a (r, (d.handle r).1) with
      | none => simp [List.filterMap_cons_none hack]
      | some data => simp [List.filterMap_cons_some hack, List.getLast?_cons]
    | inject | clear => rfl

/-- Holds where every entry with a length has bytes of this length. -/
def Sized (d : Daemon) : Prop :=
  ∀ node a e, d.stored? node a = some e → ∀ length, e.length = some length → e.data.length = length

theorem sized_serving (known : List (UInt8 × Catalog)) : (serving known).Sized := by
  intro node a e he length hlength
  rw [stored?_serving, Option.map_eq_some_iff] at he
  obtain ⟨x, -, rfl⟩ := he
  simp [Entry.zeros, show x.type.byteSize? = some length from hlength]

theorem Sized.handle (h : d.Sized) (r : Request) : (d.handle r).2.1.Sized := by
  have hr := d.handling r
  generalize d.handle r = out at hr ⊢
  cases hr with
  | @written n b data m x hm hx hlen =>
    intro node a e he length hlength
    rw [stored?_put] at he
    split at he
    · rename_i ht
      obtain ⟨rfl, rfl⟩ := ht
      have hget : d.stored? node a = some x := by
        rw [stored?, hm]
        exact NodeStore.get?_of_access hx
      rw [hget, Option.map_some, Option.some.injEq] at he
      subst he
      exact hlen length hlength
    · exact h node a e he length hlength
  | commanded =>
    intro node a e he
    exact h node a e (stored?_command .. ▸ he)
  | _ => exact h

theorem Sized.takeAll (h : d.Sized) (inputs : List Input) : (d.takeAll inputs).Sized := by
  induction inputs generalizing d with
  | nil => exact h
  | cons i rest ih =>
    cases i with
    | request r => exact ih (h.handle r)
    | inject | clear => exact ih h

/-- Holds of the indices of the communication profile. -/
def InProfile (index : UInt16) : Prop := 0x1000 ≤ index ∧ index ≤ 0x1FFF

/-- What can be said of a daemon with known nodes after a series of exchanges: of what it holds, and of
whatever request comes next, its reply to it and what becomes of it. -/
structure Faithful (known : List (UInt8 × Catalog)) (t : List (Request × Option Reply))
    (d : Daemon) : Prop where
  /-- A node has the addresses of its catalog. -/
  addresses : ∀ node a, (d.bytes? node a).isSome ↔ (defined? known node a).isSome
  /-- The bytes of an entry have the size of its type. -/
  sizes : ∀ node a e size, defined? known node a = some e → e.type.byteSize? = some size →
    (d.bytes? node a).map List.length = some size
  /-- A request that is refused or not answered changes nothing. -/
  traceless : ∀ r, (d.handle r).1 = none ∨ (∃ why, (d.handle r).1 = some (.refusal why)) →
    (d.handle r).2.1 = d
  /-- A request changes no node but the one it is about. -/
  isolated : ∀ r node, r.node? ≠ some node →
    (d.handle r).2.1.nodes.get? node = d.nodes.get? node
  /-- Of a stopped node no value beyond the communication profile is changed. -/
  frozen : ∀ r node a, d.state? node = some .stopped → ¬InProfile a.index →
    (d.handle r).2.1.bytes? node a = d.bytes? node a
  /-- Of a stopped node no value beyond the communication profile is given, unless it is to be
  spoiled. -/
  hidden : ∀ node a data, d.state? node = some .stopped → ¬InProfile a.index →
    (d.handle (.readEntry node a)).1 = some (.entry data) → d.failing.get? node = some .malformed
  /-- A node that is not to spoil what it gives gives the bytes written last, or else zeros. -/
  truthful : ∀ node a data, (d.handle (.readEntry node a)).1 = some (.entry data) →
    d.failing.get? node ≠ some .malformed →
    ∃ e, defined? known node a = some e ∧ data = (lastWritten? node a t).getD e.zeros

theorem isolated_handle (d : Daemon) {r : Request} (h : r.node? ≠ some node) :
    (d.handle r).2.1.nodes.get? node = d.nodes.get? node := by
  have hr := d.handling r
  generalize d.handle r = out at hr ⊢
  cases hr with
  | @written n b data => exact get?_nodes_put_ne (fun hn => h (congrArg some hn.symm)) d b data
  | @commanded n code m c =>
    have hn : node ≠ n := fun hn => h (congrArg some hn.symm)
    have hset (d : Daemon) (s : NodeState) :
        (d.setState n s).1.nodes.get? node = d.nodes.get? node := SortedMap.get?_modify_ne hn ..
    unfold command
    split
    · simp only [hset]
    · exact hset d _
  | _ => rfl

theorem traceless_handle (d : Daemon) {r : Request}
    (h : (d.handle r).1 = none ∨ ∃ why, (d.handle r).1 = some (.refusal why)) :
    (d.handle r).2.1 = d := by
  have hr := d.handling r
  generalize d.handle r = out at h hr ⊢
  cases hr with
  | written | commanded => simp at h
  | _ => rfl

/-- A stopped node serves the communication profile alone. -/
theorem inProfile_of_access {n : NodeStore} {e : Stored} (hn : d.nodes.get? node = some n)
    (hstopped : d.state? node = some .stopped) (he : n.access a = .ok e) : InProfile a.index := by
  have hstate : n.state = .stopped := by simpa [state?, hn] using hstopped
  have hserves := NodeStore.serves_of_access he
  simpa [NodeStore.serves, hstate, InProfile] using hserves

theorem frozen_handle (d : Daemon) (r : Request) (hstopped : d.state? node = some .stopped)
    (ha : ¬InProfile a.index) : (d.handle r).2.1.bytes? node a = d.bytes? node a := by
  have hr := d.handling r
  generalize d.handle r = out at hr ⊢
  cases hr with
  | @written n b data m x hm hx =>
    rw [bytes?_eq, bytes?_eq, stored?_put, if_neg]
    rintro ⟨rfl, rfl⟩
    exact ha (inProfile_of_access hm hstopped hx)
  | commanded => rw [bytes?_eq, bytes?_eq, stored?_command]
  | _ => rfl

/-- What is given of a node that is not to spoil it is what the entry holds. -/
theorem exists_of_handle_readEntry (d : Daemon)
    (h : (d.handle (.readEntry node a)).1 = some (.entry data))
    (hfail : d.failing.get? node ≠ some .malformed) :
    ∃ n e, d.nodes.get? node = some n ∧ n.access a = .ok e ∧ e.data = data := by
  have hr := d.handling (.readEntry node a)
  generalize d.handle (.readEntry node a) = out at h hr
  cases hr with
  | spoiled hm => exact absurd hm hfail
  | read hn he =>
    cases h
    exact ⟨_, _, hn, he, rfl⟩
  | _ => simp at h

/-- The daemon is a faithful store: whatever nodes are added to it and whatever then happens to it,
every node has the addresses of its catalog with bytes of their sizes, and of whatever request comes
next it holds that it leaves no trace if it is refused or not answered, that it changes no node but its
own, that nothing of a stopped node is given or changed beyond the communication profile, and that what
is read is what was written last, or zeros. Failures that spoil what is read are the only exception. -/
theorem faithful_over_run (known : List (UInt8 × Catalog)) (inputs : List Input) :
    Faithful known ((serving known).exchanges inputs) ((serving known).takeAll inputs) := by
  have hstored (node : UInt8) (a : Address) := stored?_takeAll (serving known) inputs node a
  simp only [stored?_serving, Option.map_map] at hstored
  have hsized := (sized_serving known).takeAll inputs
  generalize (serving known).exchanges inputs = t at hstored ⊢
  generalize (serving known).takeAll inputs = d at hstored hsized ⊢
  refine ⟨fun node a => ?_, fun node a e size he hsize => ?_, fun r => traceless_handle d,
    fun r node => isolated_handle d, fun r node a => frozen_handle d r,
    fun node a data hstopped ha h => ?_, fun node a data h hfail => ?_⟩
  · simp [bytes?_eq, hstored]
  · have hget := hstored node a
    rw [he, Option.map_some] at hget
    rw [bytes?_eq, hget]
    exact congrArg some (hsized node a _ hget size hsize)
  · refine Decidable.byContradiction fun hfail => ?_
    obtain ⟨n, e, hn, he, -⟩ := exists_of_handle_readEntry d h hfail
    exact ha (inProfile_of_access hn hstopped he)
  · obtain ⟨n, x, hn, hx, rfl⟩ := exists_of_handle_readEntry d h hfail
    have hget := hstored node a
    rw [stored?, hn, Option.bind_some, NodeStore.get?_of_access hx, eq_comm,
      Option.map_eq_some_iff] at hget
    obtain ⟨e, he, rfl⟩ := hget
    exact ⟨e, he, rfl⟩

end Daemon

end Canopen
