import Canopen.Network
import Canopen.Proofs.SortedMap.Lookup
/-!
# Registries of nodes

A registry begins without nodes and changes when a node is registered or taken out and when the daemon
tells which nodes it knows. Whatever has been done with it, the handle of a node is one of that very
node (`Network.Made.node_eq`).
-/
namespace Canopen.Network

/-- Holds of registries in which every node has a handle of its own. -/
def Named (n : Network) : Prop := ∀ node h, n.handle? node = some h → h.node = node

variable {n : Network}

theorem Named.add (hn : n.Named) (o : Observations) (node : UInt8) : (n.add o node).2.1.Named := by
  intro other h hget
  unfold Network.add at hget
  split at hget
  · exact hn other h hget
  · simp only [handle?, SortedMap.get?_insert] at hget
    split at hget
    · rename_i heq
      cases hget
      exact heq.symm
    · exact hn other h hget

theorem Named.addAll (hn : n.Named) (o : Observations) (ids : List UInt8) :
    (n.addAll o ids).1.Named := by
  induction ids generalizing n o with
  | nil => exact hn
  | cons node rest ih => exact ih (hn.add o node) _

theorem Named.filterKeys (hn : n.Named) (keep : UInt8 → Bool) :
    ({ n with handles := n.handles.filterKeys keep } : Network).Named := by
  intro other h hget
  simp only [handle?, SortedMap.get?_filterKeys] at hget
  split at hget
  · exact hn other h hget
  · contradiction

theorem Named.remove (hn : n.Named) (node : UInt8) : (n.remove node).2.Named := hn.filterKeys _

theorem Named.update (hn : n.Named) (o : Observations) (answer : Answer) :
    (n.update o answer).2.1.Named := by
  unfold Network.update
  split
  · exact (hn.filterKeys _).addAll o _
  · exact hn

/-- Holds of the registries that come of what can be done with one. -/
inductive Made : Network → Prop
  | new (limit : Duration) : Made { limit }
  | add {n : Network} (hn : Made n) (o : Observations) (node : UInt8) : Made (n.add o node).2.1
  | remove {n : Network} (hn : Made n) (node : UInt8) : Made (n.remove node).2
  | update {n : Network} (hn : Made n) (o : Observations) (answer : Answer) :
      Made (n.update o answer).2.1

theorem Made.named (h : n.Made) : n.Named := by
  induction h with
  | new limit => exact fun _ _ hget => by contradiction
  | add _ o node ih => exact ih.add o node
  | remove _ node ih => exact ih.remove node
  | update _ o answer ih => exact ih.update o answer

/-- The nodes of the handles are those registered, each once. -/
theorem Made.nodes_eq (h : n.Made) : n.handles.toList.map (fun p => p.2.node) = n.nodes := by
  refine List.map_congr_left fun p hp => ?_
  exact h.named p.1 p.2 (SortedMap.mem_toList.mp hp)

end Canopen.Network
