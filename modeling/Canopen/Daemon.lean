import Canopen.Catalog
import Canopen.SortedMap
import Canopen.NodeState
import Canopen.Reply
/-!
# The node daemon

The daemon's side of the exchange: nodes with their entries and states, how a request is answered
and what it changes, and the events it causes. Failures can be injected node by node.
-/
namespace Canopen

/-- The bytes of an entry and the length they must have. -/
structure Stored where
  data : List UInt8
  length : Option Nat
  deriving DecidableEq, Repr

structure NodeStore where
  state : NodeState := .preOperational
  entries : List (Address × Stored) := []
  deriving DecidableEq, Repr

namespace NodeStore

/-- A node with the entries of a catalog, all zero. -/
def ofCatalog (c : Catalog) : NodeStore :=
  { entries := c.entries.map fun e =>
      let length := e.type.byteSize?
      (e.address, ⟨List.replicate (length.getD 0) 0, length⟩) }

def get? (n : NodeStore) (a : Address) : Option Stored := n.entries.lookup a

/-- Sets the bytes of an entry that is there. -/
def setData (n : NodeStore) (a : Address) (data : List UInt8) : NodeStore :=
  { n with entries := n.entries.map fun e => if e.1 = a then (a, { e.2 with data }) else e }

theorem get?_setData (n : NodeStore) (a b : Address) (data : List UInt8) :
    (n.setData a data).get? b =
      if b = a then (n.get? b).map fun e => { e with data } else n.get? b := by
  obtain ⟨state, entries⟩ := n
  simp only [get?, setData]
  induction entries with
  | nil => simp
  | cons p rest ih =>
    obtain ⟨c, e⟩ := p
    rw [List.map_cons]
    by_cases hb : b = c
    · subst hb
      by_cases ha : b = a <;> simp [ha]
    · rw [lookup_cons_ne hb, ← ih]
      by_cases hc : c = a
      · rw [if_pos hc, lookup_cons_ne (hc ▸ hb)]
      · rw [if_neg hc, lookup_cons_ne hb]

@[simp] theorem get?_setData_self (n : NodeStore) (a : Address) (data : List UInt8) :
    (n.setData a data).get? a = (n.get? a).map fun e => { e with data } := by
  rw [get?_setData, if_pos rfl]

theorem get?_setData_ne {a b : Address} (h : b ≠ a) (n : NodeStore) (data : List UInt8) :
    (n.setData a data).get? b = n.get? b := by
  rw [get?_setData, if_neg h]

theorem setData_comm {a b : Address} (h : a ≠ b) (n : NodeStore) (x y : List UInt8) :
    (n.setData a x).setData b y = (n.setData b y).setData a x := by
  simp only [setData, List.map_map, mk.injEq, true_and]
  refine List.map_congr_left fun p _ => ?_
  by_cases ha : p.1 = a
  · simp [ha, h]
  · by_cases hb : p.1 = b
    · simp [hb, h.symm]
    · simp [ha, hb]

theorem setData_setData (n : NodeStore) (a : Address) (x y : List UInt8) :
    (n.setData a x).setData a y = n.setData a y := by
  simp only [setData, List.map_map, mk.injEq, true_and]
  refine List.map_congr_left fun p _ => ?_
  by_cases ha : p.1 = a <;> simp [ha]

theorem any_index_setData (n : NodeStore) (a : Address) (data : List UInt8) (index : UInt16) :
    ((n.setData a data).entries.any fun e => e.1.index = index) =
      n.entries.any fun e => e.1.index = index := by
  simp only [setData, List.any_map]
  refine congrArg n.entries.any (funext fun e => ?_)
  simp only [Function.comp_apply]
  split
  · rename_i he
    simp [he]
  · rfl

/-- Sets the bytes of an entry without any check. A new entry keeps the length it begins with. -/
def seed (n : NodeStore) (a : Address) (data : List UInt8) : NodeStore :=
  if (n.get? a).isSome then n.setData a data
  else { n with entries := n.entries ++ [(a, ⟨data, some data.length⟩)] }

/-- Holds of the indices that a node in this state serves. A stopped node only serves the
communication profile. -/
def serves (n : NodeStore) (index : UInt16) : Bool :=
  n.state != .stopped || (0x1000 ≤ index && index ≤ 0x1FFF)

/-- The entry at an address, or why it cannot be used. -/
def access (n : NodeStore) (a : Address) : Except Refusal Stored :=
  if !n.serves a.index then .error (.abort .deviceState)
  else
    match n.get? a with
    | some e => .ok e
    | none =>
      if n.entries.any fun e => e.1.index = a.index then .error (.abort .subIndexNotFound)
      else .error (.abort .objectNotFound)

theorem serves_of_access {n : NodeStore} {a : Address} {e : Stored}
    (h : n.access a = .ok e) : n.serves a.index := by
  unfold access at h
  split at h
  · contradiction
  · rename_i hserves
    simpa using hserves

theorem get?_of_access {n : NodeStore} {a : Address} {e : Stored}
    (h : n.access a = .ok e) : n.get? a = some e := by
  unfold access at h
  split at h
  · contradiction
  · split at h
    · rename_i hget
      cases h
      exact hget
    · split at h <;> contradiction

/-- Writes an entry. Its length must be kept, unless it has none. -/
def write (n : NodeStore) (a : Address) (data : List UInt8) : Except Refusal NodeStore :=
  match n.access a with
  | .error why => .error why
  | .ok e =>
    match e.length with
    | none => .ok (n.setData a data)
    | some length =>
      if length < data.length then .error (.abort .lengthTooHigh)
      else if data.length < length then .error (.abort .lengthTooLow)
      else .ok (n.setData a data)

end NodeStore

inductive Failing where
  | silent
  | abort (code : AbortCode)
  | malformed
  deriving DecidableEq, Repr

structure Daemon where
  nodes : NodeMap NodeStore := .empty
  failing : NodeMap Failing := .empty
  deriving DecidableEq, Repr

namespace Daemon

/-- The number of process data objects of every node. -/
def pdoCount : UInt8 := 16

def addNode (d : Daemon) (node : UInt8) (c : Catalog) : Daemon :=
  { d with nodes := d.nodes.insert node (.ofCatalog c) }

def removeNode (d : Daemon) (node : UInt8) : Daemon := { d with nodes := d.nodes.erase node }

def seed (d : Daemon) (node : UInt8) (a : Address) (data : List UInt8) : Daemon :=
  { d with nodes := d.nodes.modify node fun n => n.seed a data }

def bytes? (d : Daemon) (node : UInt8) (a : Address) : Option (List UInt8) :=
  (d.nodes.get? node).bind fun n => (n.get? a).map (·.data)

def state? (d : Daemon) (node : UInt8) : Option NodeState := (d.nodes.get? node).map (·.state)

/-- Sets the state of a node, which is told by a heartbeat. -/
def setState (d : Daemon) (node : UInt8) (s : NodeState) : Daemon × List Event :=
  ({ d with nodes := d.nodes.modify node fun n => { n with state := s } },
    [.heartbeat node s.code])

def inject (d : Daemon) (node : UInt8) (f : Failing) : Daemon :=
  { d with failing := d.failing.insert node f }

def clear (d : Daemon) (node : UInt8) : Daemon := { d with failing := d.failing.erase node }

/-- What a failure makes the daemon answer, if it concerns the request. -/
def failure? (d : Daemon) (r : Request) : Option (Option Reply) :=
  match r.node?.bind d.failing.get? with
  | none => none
  | some .silent => some none
  | some (.abort code) => some (some (.refusal (.abort code)))
  | some .malformed =>
    match r with
    | .readEntry node a => some (some (.entry ((d.bytes? node a).getD [] ++ [0xFF])))
    | _ => none

/-- Carries out a command. A reset passes through initializing to pre-operational. -/
def command (d : Daemon) (node : UInt8) (c : NodeCommand) : Daemon × List Event :=
  if c.isReset then
    let (d, first) := d.setState node .initializing
    let (d, second) := d.setState node .preOperational
    (d, first ++ second)
  else d.setState node c.target

def serveNode (d : Daemon) (node : UInt8) (n : NodeStore) (r : Request) :
    Except Refusal (Reply × Daemon × List Event) :=
  match r with
  | .readEntry _ a =>
    match n.access a with
    | .ok e => .ok (.entry e.data, d, [])
    | .error why => .error why
  | .writeEntry _ a data =>
    match n.write a data with
    | .ok n => .ok (.ack, { d with nodes := d.nodes.insert node n }, [])
    | .error why => .error why
  | .queryState _ => .ok (.state n.state.code, d, [])
  | .command _ code =>
    match NodeCommand.ofCode? code with
    | some c =>
      let (d, events) := d.command node c
      .ok (.ack, d, events)
    | none => .error (.abort .invalidValue)
  | .sendEmergency _ code info => .ok (.ack, d, [.emergency node code info])
  | .sendPdo _ number => if number < pdoCount then .ok (.ack, d, []) else .error (.noSuchPdo number)
  | .listNodes => .ok (.nodes d.nodes.keys, d, [])

/-- What the daemon answers to a request, if anything, what becomes of it, and the events. -/
def handle (d : Daemon) (r : Request) : Option Reply × Daemon × List Event :=
  match d.failure? r with
  | some reply => (reply, d, [])
  | none =>
    match r.node? with
    | none => (some (.nodes d.nodes.keys), d, [])
    | some node =>
      match d.nodes.get? node with
      | none => (some (.refusal (.unknownNode node)), d, [])
      | some n =>
        match d.serveNode node n r with
        | .ok (reply, d, events) => (some reply, d, events)
        | .error why => (some (.refusal why), d, [])

end Daemon

end Canopen
