import Canopen.Daemon
import Canopen.Proofs.SortedMap.Lookup
/-!
# What requests do to the daemon

Every request is answered in one of a few ways, and only two of them change anything: an acknowledged
write sets the bytes of the one entry it names, an acknowledged command the state of the one node it
names (`Daemon.handling`). Writing one entry changes neither the reply to a request for another one
nor what that request does (`Daemon.handle_put`).
-/
namespace Canopen

/-- Why bytes cannot be written in the place of those of an entry: they have not its length. -/
def Stored.lengthFault? (e : Stored) (data : List UInt8) : Option Refusal :=
  match e.length with
  | none => none
  | some length =>
    if length < data.length then some (.abort .lengthTooHigh)
    else if data.length < length then some (.abort .lengthTooLow)
    else none

theorem Stored.lengthFault?_eq_none_iff {e : Stored} {data : List UInt8} :
    e.lengthFault? data = none ↔ ∀ length, e.length = some length → data.length = length := by
  unfold lengthFault?
  cases e.length with
  | none => simp
  | some length =>
    dsimp only
    by_cases hhigh : length < data.length
    · have hne : data.length ≠ length := by omega
      simp [hhigh, hne]
    · by_cases hlow : data.length < length
      · have hne : data.length ≠ length := by omega
        simp [hhigh, hlow, hne]
      · have heq : data.length = length := by omega
        simp [heq]

/-- The entry of a node that a request is about. -/
def Request.target? : Request → Option (UInt8 × Address)
  | readEntry node a | writeEntry node a _ => some (node, a)
  | _ => none

namespace NodeStore

variable {n : NodeStore} {a b : Address} {data : List UInt8}

/-- Whether an entry can be used does not depend on the bytes of another one. -/
theorem access_setData (h : b ≠ a) (n : NodeStore) (data : List UInt8) :
    (n.setData a data).access b = n.access b := by
  have hserves : (n.setData a data).serves b.index = n.serves b.index := rfl
  unfold access
  rw [hserves, get?_setData_ne h, any_index_setData]

theorem access_setData_self (n : NodeStore) (a : Address) (data : List UInt8) :
    (n.setData a data).access a = (n.access a).map fun e => { e with data } := by
  have hserves : (n.setData a data).serves a.index = n.serves a.index := rfl
  unfold access
  rw [hserves, get?_setData_self, any_index_setData]
  split
  · rfl
  · cases n.get? a with
    | some e => rfl
    | none =>
      dsimp only [Option.map]
      split <;> rfl

/-- An entry that can be used is written where its length is kept. -/
theorem write_eq (n : NodeStore) (a : Address) (data : List UInt8) :
    n.write a data = (n.access a).bind fun e =>
      match e.lengthFault? data with
      | some why => .error why
      | none => .ok (n.setData a data) := by
  unfold write Stored.lengthFault?
  cases n.access a with
  | error why => rfl
  | ok e =>
    simp only [Except.bind]
    cases e.length with
    | none => rfl
    | some length =>
      dsimp only
      split
      · rfl
      · split <;> rfl

end NodeStore

namespace Daemon

/-- The daemon after bytes have been written to an entry of a node. -/
def put (d : Daemon) (node : UInt8) (a : Address) (data : List UInt8) : Daemon :=
  { d with nodes := d.nodes.modify node fun n => n.setData a data }

/-- The entry at an address of a node, or why it cannot be used. -/
def access (d : Daemon) (node : UInt8) (a : Address) : Except Refusal Stored :=
  match d.nodes.get? node with
  | none => .error (.unknownNode node)
  | some n => n.access a

def stored? (d : Daemon) (node : UInt8) (a : Address) : Option Stored :=
  (d.nodes.get? node).bind fun n => n.get? a

variable {d : Daemon} {node other : UInt8} {a b : Address} {data : List UInt8}

theorem bytes?_eq (d : Daemon) (node : UInt8) (a : Address) :
    d.bytes? node a = (d.stored? node a).map (·.data) := by
  unfold bytes? stored?
  cases d.nodes.get? node <;> rfl

theorem stored?_of_access {e : Stored} (h : d.access node a = .ok e) : d.stored? node a = some e := by
  unfold access at h
  unfold stored?
  cases hn : d.nodes.get? node with
  | none =>
    rw [hn] at h
    contradiction
  | some n =>
    rw [hn] at h
    exact NodeStore.get?_of_access h

@[simp] theorem failing_put (d : Daemon) (node : UInt8) (a : Address) (data : List UInt8) :
    (d.put node a data).failing = d.failing := rfl

@[simp] theorem state?_put (d : Daemon) (node other : UInt8) (a : Address) (data : List UInt8) :
    (d.put node a data).state? other = d.state? other := by
  simp only [state?, put, SortedMap.get?_modify]
  split <;> cases d.nodes.get? other <;> rfl

theorem get?_nodes_put_ne (h : other ≠ node) (d : Daemon) (a : Address) (data : List UInt8) :
    (d.put node a data).nodes.get? other = d.nodes.get? other := SortedMap.get?_modify_ne h ..

theorem stored?_put (d : Daemon) (node other : UInt8) (a b : Address) (data : List UInt8) :
    (d.put node a data).stored? other b =
      if other = node ∧ b = a then (d.stored? other b).map fun e => { e with data }
      else d.stored? other b := by
  simp only [stored?, put, SortedMap.get?_modify]
  by_cases hnode : other = node
  · cases hget : d.nodes.get? other with
    | none => simp
    | some n =>
      by_cases hb : b = a
      · subst hb
        simp [hnode]
      · simp [hnode, hb, NodeStore.get?_setData_ne hb]
  · simp [hnode]

theorem access_put (h : ¬(other = node ∧ b = a)) (d : Daemon) (data : List UInt8) :
    (d.put node a data).access other b = d.access other b := by
  simp only [access, put, SortedMap.get?_modify]
  by_cases hnode : other = node
  · rw [if_pos hnode]
    cases d.nodes.get? other with
    | none => rfl
    | some n => exact NodeStore.access_setData (fun hb => h ⟨hnode, hb⟩) n data
  · rw [if_neg hnode]

/-- What has been written can be used as before, with the bytes that were written. -/
theorem access_put_self (d : Daemon) (node : UInt8) (a : Address) (data : List UInt8) :
    (d.put node a data).access node a = (d.access node a).map fun e => { e with data } := by
  simp only [access, put, SortedMap.get?_modify_self]
  cases d.nodes.get? node with
  | none => rfl
  | some n => exact NodeStore.access_setData_self n a data

theorem failure?_put {r : Request} (hr : r.target? = some (other, b))
    (h : ¬(other = node ∧ b = a)) (d : Daemon) (data : List UInt8) :
    (d.put node a data).failure? r = d.failure? r := by
  have hbytes : (d.put node a data).bytes? other b = d.bytes? other b := by
    rw [bytes?_eq, bytes?_eq, stored?_put, if_neg h]
  cases r <;> cases hr
  · simp only [failure?, failing_put, hbytes]
  · simp only [failure?, failing_put]

/-- Writes to different entries can be made in either order. -/
theorem put_comm (h : ¬(node = other ∧ a = b)) (d : Daemon) (x y : List UInt8) :
    (d.put node a x).put other b y = (d.put other b y).put node a x := by
  simp only [put, mk.injEq, and_true]
  refine SortedMap.modify_comm (fun hnode n => ?_) d.nodes
  exact NodeStore.setData_comm (fun hab => h ⟨hnode, hab.symm⟩) n y x

/-- How a request is handled: the reply, if there is one, the daemon afterwards, and the events. -/
inductive Handling (d : Daemon) : Request → Option Reply × Daemon × List Event → Prop
  /-- The node is to stay silent. -/
  | silent {r : Request} {node : UInt8} (hnode : r.node? = some node)
      (hfail : d.failing.get? node = some .silent) : Handling d r (none, d, [])
  /-- The request is refused, for a reason of its own or because the node is to fail. -/
  | refused {r : Request} (why : Refusal) : Handling d r (some (.refusal why), d, [])
  /-- The bytes are spoiled, because the node is to send such. -/
  | spoiled {node : UInt8} {a : Address} (hfail : d.failing.get? node = some .malformed) :
      Handling d (.readEntry node a) (some (.entry ((d.bytes? node a).getD [] ++ [0xFF])), d, [])
  | read {node : UInt8} {a : Address} {n : NodeStore} {e : Stored}
      (hn : d.nodes.get? node = some n) (he : n.access a = .ok e) :
      Handling d (.readEntry node a) (some (.entry e.data), d, [])
  | written {node : UInt8} {a : Address} {data : List UInt8} {n : NodeStore} {e : Stored}
      (hn : d.nodes.get? node = some n) (he : n.access a = .ok e)
      (hlen : ∀ length, e.length = some length → data.length = length) :
      Handling d (.writeEntry node a data) (some .ack, d.put node a data, [])
  | queried {node : UInt8} {n : NodeStore} (hn : d.nodes.get? node = some n) :
      Handling d (.queryState node) (some (.state n.state.code), d, [])
  | commanded {node code : UInt8} {n : NodeStore} {c : NodeCommand}
      (hn : d.nodes.get? node = some n) (hc : NodeCommand.ofCode? code = some c) :
      Handling d (.command node code) (some .ack, d.command node c)
  | emergency {node : UInt8} {code : UInt16} {info : UInt32} {n : NodeStore}
      (hn : d.nodes.get? node = some n) :
      Handling d (.sendEmergency node code info) (some .ack, d, [.emergency node code info])
  | pdo {node number : UInt8} {n : NodeStore} (hn : d.nodes.get? node = some n)
      (hnumber : number < pdoCount) : Handling d (.sendPdo node number) (some .ack, d, [])
  | listed : Handling d .listNodes (some (.nodes d.nodes.keys), d, [])

theorem handling_of_failure? {r : Request} {reply : Option Reply} (h : d.failure? r = some reply) :
    Handling d r (reply, d, []) := by
  unfold failure? at h
  split at h
  case h_1 => contradiction
  case h_2 hfail =>
    obtain ⟨node, hnode, hfail⟩ := Option.bind_eq_some_iff.mp hfail
    cases h
    exact .silent hnode hfail
  case h_3 =>
    cases h
    exact .refused _
  case h_4 hfail =>
    split at h
    · cases h
      exact .spoiled hfail
    · contradiction

theorem handling_of_serveNode {r : Request} {node : UInt8} {n : NodeStore} {reply : Reply}
    {after : Daemon × List Event} (hnode : r.node? = some node) (hn : d.nodes.get? node = some n)
    (h : d.serveNode node n r = .ok (reply, after)) : Handling d r (some reply, after) := by
  cases r with
  | readEntry _ a =>
    cases hnode
    simp only [serveNode] at h
    split at h
    · rename_i e he
      cases h
      exact .read hn he
    · contradiction
  | writeEntry _ a data =>
    cases hnode
    simp only [serveNode] at h
    split at h
    · rename_i m hm
      rw [NodeStore.write_eq] at hm
      cases he : n.access a with
      | error why =>
        rw [he] at hm
        contradiction
      | ok e =>
        cases hlen : e.lengthFault? data with
        | some why =>
          simp only [he, Except.bind, hlen] at hm
          contradiction
        | none =>
          simp only [he, Except.bind, hlen, Except.ok.injEq] at hm
          cases h
          rw [← hm, SortedMap.insert_eq_modify hn fun n => n.setData a data]
          exact .written hn he (Stored.lengthFault?_eq_none_iff.mp hlen)
    · contradiction
  | queryState _ =>
    cases hnode
    cases h
    exact .queried hn
  | command _ code =>
    cases hnode
    simp only [serveNode] at h
    split at h
    · rename_i c hc
      cases h
      exact .commanded hn hc
    · contradiction
  | sendEmergency _ code info =>
    cases hnode
    cases h
    exact .emergency hn
  | sendPdo _ number =>
    cases hnode
    simp only [serveNode] at h
    split at h
    · rename_i hnumber
      cases h
      exact .pdo hn hnumber
    · contradiction
  | listNodes => cases hnode

/-- Every request is handled in one of these ways. -/
theorem handling (d : Daemon) (r : Request) : Handling d r (d.handle r) := by
  unfold handle
  split
  case h_1 hfail => exact handling_of_failure? hfail
  case h_2 =>
    split
    case h_1 hnode =>
      cases r <;> first | exact .listed | cases hnode
    case h_2 node hnode =>
      split
      case h_1 => exact .refused _
      case h_2 n hn =>
        split
        case h_1 hserve => exact handling_of_serveNode hnode hn hserve
        case h_2 => exact .refused _

theorem handle_readEntry (d : Daemon) (node : UInt8) (a : Address) :
    d.handle (.readEntry node a) =
      match d.failure? (.readEntry node a) with
      | some reply => (reply, d, [])
      | none =>
        match d.access node a with
        | .ok e => (some (.entry e.data), d, [])
        | .error why => (some (.refusal why), d, []) := by
  unfold handle access
  cases d.failure? (.readEntry node a) with
  | some reply => rfl
  | none =>
    simp only [Request.node?]
    cases d.nodes.get? node with
    | none => rfl
    | some n =>
      simp only [serveNode]
      cases n.access a <;> rfl

theorem handle_writeEntry (d : Daemon) (node : UInt8) (a : Address) (data : List UInt8) :
    d.handle (.writeEntry node a data) =
      match d.failure? (.writeEntry node a data) with
      | some reply => (reply, d, [])
      | none =>
        match d.access node a with
        | .ok e =>
          match e.lengthFault? data with
          | some why => (some (.refusal why), d, [])
          | none => (some .ack, d.put node a data, [])
        | .error why => (some (.refusal why), d, []) := by
  unfold handle access
  cases d.failure? (.writeEntry node a data) with
  | some reply => rfl
  | none =>
    simp only [Request.node?]
    cases hn : d.nodes.get? node with
    | none => rfl
    | some n =>
      simp only [serveNode, NodeStore.write_eq]
      cases n.access a with
      | error why => rfl
      | ok e =>
        simp only [Except.bind]
        cases e.lengthFault? data with
        | some why => rfl
        | none => simp only [put, SortedMap.insert_eq_modify hn fun n => n.setData a data]

/-- A request for an entry leaves the daemon as it is or writes the entry. -/
theorem handle_of_target {r : Request} (hr : r.target? = some (node, a)) (d : Daemon) :
    (d.handle r).2.1 = d ∨ ∃ data, (d.handle r).2.1 = d.put node a data := by
  have h := d.handling r
  generalize d.handle r = out at h
  cases h with
  | written =>
    cases hr
    exact .inr ⟨_, rfl⟩
  | commanded => cases hr
  | _ => exact .inl rfl

/-- A request for an entry is handled as if another entry had not been written, and the other way
round. -/
theorem handle_put {r : Request} (hr : r.target? = some (other, b)) (h : ¬(other = node ∧ b = a))
    (d : Daemon) (data : List UInt8) :
    (d.put node a data).handle r =
      ((d.handle r).1, (d.handle r).2.1.put node a data, (d.handle r).2.2) := by
  have hfail := failure?_put hr h d data
  have haccess := access_put h d data
  cases r <;> cases hr
  · rw [handle_readEntry, handle_readEntry, hfail, haccess]
    split
    · rfl
    · split <;> rfl
  · rename_i written
    rw [handle_writeEntry, handle_writeEntry, hfail, haccess]
    split
    · rfl
    · split
      · split
        · rfl
        · have hcomm := put_comm (d := d) (fun hab => h ⟨hab.1.symm, hab.2.symm⟩) data written
          rw [hcomm]
      · rfl

/-- Writing an entry again makes no difference to what was there before. -/
theorem put_put (d : Daemon) (node : UInt8) (a : Address) (x y : List UInt8) :
    (d.put node a x).put node a y = d.put node a y := by
  simp only [put, mk.injEq, and_true]
  refine SortedMap.ext_get? fun other => ?_
  simp only [SortedMap.get?_modify]
  by_cases ho : other = node
  · simp only [if_pos ho, Option.map_map]
    refine congrArg (Option.map · (d.nodes.get? other)) (funext fun n => ?_)
    exact NodeStore.setData_setData n a x y
  · simp only [if_neg ho]

theorem command_put (d : Daemon) (node other : UInt8) (a : Address) (data : List UInt8)
    (c : NodeCommand) :
    ((d.put node a data).command other c).1 = (d.command other c).1.put node a data := by
  have hset (d : Daemon) (s : NodeState) :
      ((d.put node a data).setState other s).1 = (d.setState other s).1.put node a data := by
    simp only [setState, put, mk.injEq, and_true]
    exact SortedMap.modify_comm (f := fun n => n.setData a data) (g := fun n => { n with state := s })
      (fun _ _ => rfl) d.nodes
  unfold command
  split
  · exact (congrArg (fun d => (d.setState other .preOperational).1) (hset d .initializing)).trans
      (hset _ .preOperational)
  · exact hset d _

/-- A write that is acknowledged has set the bytes of the entry; any other has changed nothing. -/
theorem handle_writeEntry_snd (d : Daemon) (node : UInt8) (a : Address) (data : List UInt8) :
    (d.handle (.writeEntry node a data)).1 = some .ack ∧
        (d.handle (.writeEntry node a data)).2.1 = d.put node a data ∨
      (d.handle (.writeEntry node a data)).1 ≠ some .ack ∧
        (d.handle (.writeEntry node a data)).2.1 = d := by
  have h := d.handling (.writeEntry node a data)
  generalize d.handle (.writeEntry node a data) = out at h
  cases h with
  | written => exact .inl ⟨rfl, rfl⟩
  | silent | refused => exact .inr ⟨by simp, rfl⟩

/-- The command that the daemon carries out on a request. -/
def heeded? (d : Daemon) (node code : UInt8) : Option NodeCommand :=
  if (d.failure? (.command node code)).isNone && (d.nodes.get? node).isSome then
    NodeCommand.ofCode? code
  else none

theorem handle_command (d : Daemon) (node code : UInt8) :
    (d.handle (.command node code)).2.1 =
      ((d.heeded? node code).map fun c => (d.command node c).1).getD d := by
  unfold handle heeded?
  cases d.failure? (.command node code) with
  | some reply => rfl
  | none =>
    simp only [Request.node?]
    cases d.nodes.get? node with
    | none => rfl
    | some n => cases hc : NodeCommand.ofCode? code <;> simp [serveNode, hc]

theorem heeded?_put (d : Daemon) (node other code : UInt8) (a : Address) (data : List UInt8) :
    (d.put node a data).heeded? other code = d.heeded? other code := by
  have hfail : (d.put node a data).failure? (.command other code) =
      d.failure? (.command other code) := rfl
  have hknown : ((d.put node a data).nodes.get? other).isSome = (d.nodes.get? other).isSome := by
    simp only [put, SortedMap.get?_modify]
    split <;> simp
  rw [heeded?, heeded?, hfail, hknown]

/-- A request that neither reads nor writes an entry and is no command changes nothing. -/
theorem handle_snd_of_idle {r : Request} (hr : r.target? = none)
    (hc : ∀ node code, r ≠ .command node code) (d : Daemon) : (d.handle r).2.1 = d := by
  have h := d.handling r
  generalize d.handle r = out at h ⊢
  cases h with
  | written => cases hr
  | commanded => exact absurd rfl (hc _ _)
  | _ => rfl

theorem handle_readEntry_snd (d : Daemon) (node : UInt8) (a : Address) :
    (d.handle (.readEntry node a)).2.1 = d := by
  have h := d.handling (.readEntry node a)
  generalize d.handle (.readEntry node a) = out at h ⊢
  cases h <;> rfl

/-- Where an entry has been written, a request that does not write it makes of the daemon what it makes
of it otherwise, with the entry written. -/
theorem handle_put_snd_of_ne {r : Request} (hr : ∀ written, r ≠ .writeEntry node a written)
    (d : Daemon) (data : List UInt8) :
    ((d.put node a data).handle r).2.1 = (d.handle r).2.1.put node a data := by
  cases htarget : r.target? with
  | some t =>
    obtain ⟨other, b⟩ := t
    by_cases hsame : other = node ∧ b = a
    · obtain ⟨rfl, rfl⟩ := hsame
      cases r <;> cases htarget
      · rw [handle_readEntry_snd, handle_readEntry_snd]
      · exact absurd rfl (hr _)
    · rw [handle_put htarget hsame]
  | none =>
    by_cases hc : ∃ other code, r = .command other code
    · obtain ⟨other, code, rfl⟩ := hc
      rw [handle_command, handle_command, heeded?_put]
      cases d.heeded? other code with
      | none => rfl
      | some c => exact command_put d node other a data c
    · have hidle : ∀ other code, r ≠ .command other code := fun other code h => hc ⟨other, code, h⟩
      rw [handle_snd_of_idle htarget hidle, handle_snd_of_idle htarget hidle]

/-- A request that writes an entry makes no difference between the bytes that were there, if it is
acknowledged. -/
theorem handle_put_snd (d : Daemon) (node : UInt8) (a : Address) (data : List UInt8) (r : Request) :
    ((d.put node a data).handle r).2.1 = (d.handle r).2.1 ∨
      ((d.put node a data).handle r).2.1 = (d.handle r).2.1.put node a data := by
  by_cases hr : ∃ written, r = .writeEntry node a written
  · obtain ⟨written, rfl⟩ := hr
    have hfail : (d.put node a data).failure? (.writeEntry node a written) =
        d.failure? (.writeEntry node a written) := rfl
    rw [handle_writeEntry, handle_writeEntry, hfail, access_put_self]
    cases d.failure? (.writeEntry node a written) with
    | some reply => exact .inr rfl
    | none =>
      cases d.access node a with
      | error why => exact .inr rfl
      | ok e =>
        have hlength : ({ e with data } : Stored).lengthFault? written = e.lengthFault? written := rfl
        simp only [Except.map, hlength]
        cases e.lengthFault? written with
        | some why => exact .inr rfl
        | none => exact .inl (put_put d node a data written)
  · exact .inr (handle_put_snd_of_ne (fun written h => hr ⟨written, h⟩) d data)

/-- What requests in turn make of a daemon. -/
def handleAll (d : Daemon) (requests : List Request) : Daemon :=
  requests.foldl (fun d r => (d.handle r).2.1) d

theorem handleAll_append (d : Daemon) (xs ys : List Request) :
    d.handleAll (xs ++ ys) = (d.handleAll xs).handleAll ys := List.foldl_append

/-- What requests make of a daemon whose entry has been written is what they make of it otherwise, or
this with the entry written; and it is the latter where none of them writes the entry. -/
theorem handleAll_put (d : Daemon) (node : UInt8) (a : Address) (data : List UInt8)
    (requests : List Request) :
    ((d.put node a data).handleAll requests = d.handleAll requests ∨
      (d.put node a data).handleAll requests = (d.handleAll requests).put node a data) ∧
    ((∀ written, .writeEntry node a written ∉ requests) →
      (d.put node a data).handleAll requests = (d.handleAll requests).put node a data) := by
  induction requests generalizing d with
  | nil => exact ⟨.inr rfl, fun _ => rfl⟩
  | cons r rest ih =>
    have hcons (d : Daemon) : d.handleAll (r :: rest) = (d.handle r).2.1.handleAll rest := rfl
    rw [hcons, hcons]
    constructor
    · rcases handle_put_snd d node a data r with hsame | hput
      · exact .inl (congrArg (Daemon.handleAll · rest) hsame)
      · rw [hput]
        exact (ih (d.handle r).2.1).1
    · intro hother
      have hr : ∀ written, r ≠ .writeEntry node a written := fun written h =>
        hother written (h ▸ List.mem_cons_self)
      rw [handle_put_snd_of_ne hr]
      exact (ih (d.handle r).2.1).2 fun written hmem =>
        hother written (List.mem_cons_of_mem r hmem)

variable {r r' : Request} {t t' : UInt8 × Address}

/-- What has been asked of another entry before makes no difference to a reply. -/
theorem handle_handle_fst (hr : r.target? = some t) (hr' : r'.target? = some t') (h : t ≠ t')
    (d : Daemon) : ((d.handle r).2.1.handle r').1 = (d.handle r').1 := by
  have hne : ¬(t'.1 = t.1 ∧ t'.2 = t.2) := fun he => h (Prod.ext he.1 he.2).symm
  rcases handle_of_target hr d with hsame | ⟨data, hput⟩
  · rw [hsame]
  · rw [hput, handle_put hr' hne]

/-- Requests for different entries can be handled in either order. -/
theorem handle_handle_comm (hr : r.target? = some t) (hr' : r'.target? = some t') (h : t ≠ t')
    (d : Daemon) :
    ((d.handle r).2.1.handle r').2.1 = ((d.handle r').2.1.handle r).2.1 := by
  have hne : ¬(t.1 = t'.1 ∧ t.2 = t'.2) := fun he => h (Prod.ext he.1 he.2)
  have hne' : ¬(t'.1 = t.1 ∧ t'.2 = t.2) := fun he => h (Prod.ext he.1 he.2).symm
  rcases handle_of_target hr d with hsame | ⟨x, hx⟩
  · rcases handle_of_target hr' d with hsame' | ⟨y, hy⟩
    · rw [hsame, hsame', hsame]
    · rw [hsame, hy, handle_put hr hne, hsame]
  · rcases handle_of_target hr' d with hsame' | ⟨y, hy⟩
    · rw [hsame', hx, handle_put hr' hne', hsame']
    · rw [hx, hy, handle_put hr' hne', handle_put hr hne, hx, hy]
      exact put_comm hne' d y x

end Daemon

end Canopen
