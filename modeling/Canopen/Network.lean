import Canopen.Client
import Canopen.SortedMap
/-!
# Networks

A client of every node that one daemon knows. Each registered node has a handle; copies of a handle
share the state last observed of the node, which is kept in a numbered cell. An operation on all
nodes runs on every registered one and keeps the outcomes apart.
-/
namespace Canopen

/-- A client of one node: its time limit and the cell with the state last observed. -/
structure Handle where
  node : UInt8
  limit : Duration
  cell : Nat
  deriving DecidableEq, Repr

structure Observations where
  states : List NodeState := []
  deriving DecidableEq, Repr

namespace Observations

/-- The state in a cell; a node of which nothing has been observed counts as initializing. -/
def get (o : Observations) (cell : Nat) : NodeState := o.states.getD cell .initializing

def set (o : Observations) (cell : Nat) (s : NodeState) : Observations := ⟨o.states.set cell s⟩

@[simp] theorem length_set (o : Observations) (cell : Nat) (s : NodeState) :
    (o.set cell s).states.length = o.states.length := List.length_set ..

theorem get_set_ne {cell other : Nat} (h : other ≠ cell) (o : Observations) (s : NodeState) :
    (o.set cell s).get other = o.get other := by
  simp [get, set, List.getElem?_set_ne h.symm]

theorem get_set_self {o : Observations} {cell : Nat} (h : cell < o.states.length) (s : NodeState) :
    (o.set cell s).get cell = s := by
  simp [get, set, h]

def newHandle (o : Observations) (node : UInt8) (limit : Duration) : Handle × Observations :=
  (⟨node, limit, o.states.length⟩, ⟨o.states ++ [.initializing]⟩)

/-- A new cell is like one of which nothing has been observed. -/
theorem get_newHandle (o : Observations) (node : UInt8) (limit : Duration) (cell : Nat) :
    (o.newHandle node limit).2.get cell = o.get cell := by
  simp only [newHandle, get, List.getD_eq_getElem?_getD, List.getElem?_append]
  split
  · rfl
  · rename_i hcell
    rw [List.getElem?_eq_none (Nat.le_of_not_lt hcell)]
    cases cell - o.states.length <;> rfl

end Observations

/-- The handles of the registered nodes and the time limit of new ones. -/
structure Network where
  limit : Duration
  handles : NodeMap Handle := .empty
  deriving DecidableEq, Repr

namespace Network

def nodes (n : Network) : List UInt8 := n.handles.keys

def handle? (n : Network) (node : UInt8) : Option Handle := n.handles.get? node

/-- Registers a node, unless it is registered already; gives its handle. -/
def add (n : Network) (o : Observations) (node : UInt8) : Handle × Network × Observations :=
  match n.handle? node with
  | some h => (h, n, o)
  | none =>
    let (h, o) := o.newHandle node n.limit
    (h, { n with handles := n.handles.insert node h }, o)

theorem handle?_add (n : Network) (o : Observations) (node other : UInt8) :
    (n.add o node).2.1.handle? other =
      if other = node then some (n.add o node).1 else n.handle? other := by
  unfold Network.add
  split
  · rename_i h hnode
    split
    · rename_i heq
      rw [heq, hnode]
    · rfl
  · exact SortedMap.get?_insert ..

theorem handle?_add_of_some {n : Network} {node : UInt8} {h : Handle} (hnode : n.handle? node = some h)
    (o : Observations) (other : UInt8) : (n.add o other).2.1.handle? node = some h := by
  rw [handle?_add]
  split
  · rename_i heq
    subst heq
    simp only [add, hnode]
  · exact hnode

/-- Takes a node out of the registry; gives its former handle. -/
def remove (n : Network) (node : UInt8) : Option Handle × Network :=
  (n.handle? node, { n with handles := n.handles.erase node })

def addAll (n : Network) (o : Observations) : List UInt8 → Network × Observations
  | [] => (n, o)
  | node :: rest =>
    let (_, n, o) := n.add o node
    n.addAll o rest

/-- Makes the registry hold exactly the given nodes. Nodes that stay keep their handles. -/
def refresh (n : Network) (o : Observations) (ids : List UInt8) : Network × Observations :=
  { n with handles := n.handles.filterKeys ids.contains }.addAll o ids

/-- The nodes of a list, each once and in rising order. -/
def sortedNodes (ids : List UInt8) : List UInt8 :=
  (ids.foldl (fun (m : NodeMap Unit) id => m.insert id ()) .empty).keys

theorem pairwise_sortedNodes (ids : List UInt8) : (sortedNodes ids).Pairwise (· < ·) :=
  List.pairwise_map.mpr (SortedMap.rising _)

def listed (answer : Answer) : Except ClientError (List UInt8) :=
  match answer with
  | .error e => .error (.link e)
  | .ok (.refusal why) => .error (.refused why)
  | .ok (.nodes ids) => .ok (sortedNodes ids)
  | .ok other => .error (.unexpected other)

/-- What becomes of the registry on a reply to a request for the list of nodes. An error leaves it
as it is. -/
def update (n : Network) (o : Observations) (answer : Answer) :
    Except ClientError (List UInt8) × Network × Observations :=
  match listed answer with
  | .ok ids => (.ok ids, n.refresh o ids)
  | .error e => (.error e, n, o)

end Network

/-- How the operations of a client reach the daemon: the link for one request after another, and the
carrying out of several operations at the same time, each with its time limit and the state last
observed of its node. -/
structure Channel (σ : Type) where
  link : Link σ
  together : {α : Type} → List (Duration × NodeState × Operation α) → σ → List (α × NodeState) × σ

namespace Channel

variable {σ τ : Type}

/-- The channel over a part of a larger whole. -/
def within (ch : Channel σ) (get : τ → σ) (set : σ → τ → τ) : Channel τ where
  link limit request t :=
    let (answer, s) := ch.link limit request (get t)
    (answer, set s t)
  together operations t :=
    let (outcomes, s) := ch.together operations (get t)
    (outcomes, set s t)

def runInTurn {α : Type} (link : Link σ) :
    List (Duration × NodeState × Operation α) → σ → List (α × NodeState) × σ
  | [], s => ([], s)
  | (limit, observed, op) :: rest, s =>
    let (a, observed, s) := op.run link limit observed s
    let (outcomes, s) := runInTurn link rest s
    ((a, observed) :: outcomes, s)

def inTurn (link : Link σ) : Channel σ where
  link := link
  together := runInTurn link

end Channel

structure Session where
  network : Network
  observations : Observations := {}
  deriving DecidableEq, Repr

namespace Session

variable {σ α : Type}

def register (s : Session) (node : UInt8) : Handle × Session :=
  let (h, network, observations) := s.network.add s.observations node
  (h, { network, observations })

def observed (s : Session) (h : Handle) : NodeState := s.observations.get h.cell

def observe (s : Session) (h : Handle) (state : NodeState) : Session :=
  { s with observations := s.observations.set h.cell state }

def perform (ch : Channel σ) (h : Handle) (op : UInt8 → Operation α) (s : Session) (w : σ) :
    α × Session × σ :=
  let (a, state, w) := (op h.node).run ch.link h.limit (s.observed h) w
  (a, s.observe h state, w)

/-- Waits for a heartbeat through a handle, over the signals that come within the time limit; notes
the state. -/
def awaitHeartbeat (h : Handle) (limit : Duration) (signals : List Client.Signal) (s : Session) :
    Except ClientError NodeState × Session :=
  match Client.awaitHeartbeat h.node limit signals with
  | .ok state => (.ok state, s.observe h state)
  | .error e => (.error e, s)

def observeAll (s : Session) (pairs : List (Handle × NodeState)) : Session :=
  pairs.foldl (fun s (h, state) => s.observe h state) s

@[simp] theorem network_observeAll (s : Session) (pairs : List (Handle × NodeState)) :
    (s.observeAll pairs).network = s.network := by
  induction pairs generalizing s with
  | nil => rfl
  | cons p rest ih => exact ih _

/-- Carries out an operation on every registered node; gives the outcomes by node. -/
def performAll (ch : Channel σ) (op : UInt8 → Operation α) (s : Session) (w : σ) :
    List (UInt8 × α) × Session × σ :=
  let handles := s.network.handles.toList.map Prod.snd
  let (outcomes, w) :=
    ch.together (handles.map fun h => (h.limit, s.observed h, op h.node)) w
  let s := s.observeAll (handles.zip (outcomes.map Prod.snd))
  ((handles.map (·.node)).zip (outcomes.map Prod.fst), s, w)

/-- Asks the daemon for the nodes it knows and makes the registry hold them. -/
def listNodes (ch : Channel σ) (s : Session) (w : σ) :
    Except ClientError (List UInt8) × Session × σ :=
  let (answer, w) := ch.link s.network.limit .listNodes w
  let (r, network, observations) := s.network.update s.observations answer
  (r, { network, observations }, w)

end Session

end Canopen
