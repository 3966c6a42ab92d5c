import Canopen.Proofs.Daemon.Store
/-!
# What a daemon tells is true

A daemon tells the states that a node passes through on a command it acknowledges, and the emergencies
it acknowledges, and nothing else (`Daemon.events_meetAll`). Only commands change the state of a node
that stays, so from the first command on that a node acknowledges the heartbeat told last of it has its
state (`Daemon.events_truthful`).
-/
namespace Canopen

/-- The states that a node passes through on a command, in order. -/
def NodeCommand.passage : NodeCommand → List NodeState
  | reset | resetCommunication => [.initializing, .preOperational]
  | start => [.operational]
  | stop => [.stopped]
  | enterPreOperational => [.preOperational]

/-- The state in a heartbeat of a node. -/
def Event.heartbeatOf? (node : UInt8) : Event → Option UInt8
  | heartbeat sender code => if sender = node then some code else none
  | _ => none

/-- The state in the last heartbeat of a node. -/
def lastHeartbeat? (node : UInt8) (events : List Event) : Option UInt8 :=
  (events.filterMap (Event.heartbeatOf? node)).getLast?

theorem lastHeartbeat?_append (node : UInt8) (events later : List Event) :
    lastHeartbeat? node (events ++ later) =
      (lastHeartbeat? node later).or (lastHeartbeat? node events) := by
  rw [lastHeartbeat?, List.filterMap_append, List.getLast?_append]
  rfl

theorem isSome_lastHeartbeat?_append {node : UInt8} {events : List Event}
    (h : (lastHeartbeat? node events).isSome) (later : List Event) :
    (lastHeartbeat? node (events ++ later)).isSome := by
  rw [lastHeartbeat?_append, Option.isSome_or, h, Bool.or_true]

namespace Daemon

/-- What can happen to a daemon: a request comes, a node is added or taken away, an entry is given its
bytes, or a failure is shown from now on or no more. -/
inductive Occurrence where
  | request (r : Request)
  | add (node : UInt8) (c : Catalog)
  | remove (node : UInt8)
  | seed (node : UInt8) (a : Address) (data : List UInt8)
  | inject (node : UInt8) (f : Failing)
  | clear (node : UInt8)

/-- What is replied, what becomes of the daemon, and the events. -/
def meet (d : Daemon) : Occurrence → Option Reply × Daemon × List Event
  | .request r => d.handle r
  | .add node c => (none, d.addNode node c, [])
  | .remove node => (none, d.removeNode node, [])
  | .seed node a data => (none, d.seed node a data, [])
  | .inject node f => (none, d.inject node f, [])
  | .clear node => (none, d.clear node, [])

/-- What has happened, each with what was replied, what becomes of the daemon in the end, and all
events. -/
def meetAll (d : Daemon) : List Occurrence → List (Occurrence × Option Reply) × Daemon × List Event
  | [] => ([], d, [])
  | o :: rest =>
    let (reply, d, events) := d.meet o
    let (record, d, later) := d.meetAll rest
    ((o, reply) :: record, d, events ++ later)

/-- The events due to something that has happened: the heartbeats of an acknowledged command, or an
acknowledged emergency. -/
def due : Occurrence × Option Reply → List Event
  | (.request (.command node code), some .ack) =>
    match NodeCommand.ofCode? code with
    | some c => c.passage.map fun s => .heartbeat node s.code
    | none => []
  | (.request (.sendEmergency node code info), some .ack) => [.emergency node code info]
  | _ => []

variable {d : Daemon} {node : UInt8} {o : Occurrence}

theorem events_command (d : Daemon) (node : UInt8) (c : NodeCommand) :
    (d.command node c).2 = c.passage.map fun s => .heartbeat node s.code := by
  cases c <;> rfl

theorem events_handle (d : Daemon) (r : Request) :
    (d.handle r).2.2 = due (.request r, (d.handle r).1) := by
  have h := d.handling r
  generalize d.handle r = out at h ⊢
  cases h with
  | commanded hn hc => simp only [due, hc, events_command]
  | refused why => cases r <;> rfl
  | silent => cases r <;> rfl
  | _ => rfl

theorem events_meet (d : Daemon) (o : Occurrence) : (d.meet o).2.2 = due (o, (d.meet o).1) := by
  cases o with
  | request r => exact d.events_handle r
  | _ => rfl

theorem events_meetAll (d : Daemon) (occurrences : List Occurrence) :
    (d.meetAll occurrences).2.2 = (d.meetAll occurrences).1.flatMap due := by
  induction occurrences generalizing d with
  | nil => rfl
  | cons o rest ih => simp only [meetAll, List.flatMap_cons, ih, d.events_meet o]

/-- Holds where a node that is known afterwards is in the state that the events have told last of it, or
else in the state it was in. -/
def Tells (node : UInt8) (d : Daemon) (out : Daemon × List Event) : Prop :=
  ∀ state, out.1.state? node = some state →
    ∃ s, d.state? node = some s ∧ state.code = (lastHeartbeat? node out.2).getD s.code

theorem Tells.of_state?_eq {d' : Daemon} {events : List Event} (hstate : d'.state? node = d.state? node)
    (hevents : lastHeartbeat? node events = none) : Tells node d (d', events) := by
  intro state h
  refine ⟨state, hstate ▸ h, ?_⟩
  rw [hevents, Option.getD_none]

theorem Tells.trans {d' d'' : Daemon} {events later : List Event} (h : Tells node d (d', events))
    (h' : Tells node d' (d'', later)) : Tells node d (d'', events ++ later) := by
  intro state hstate
  obtain ⟨s', hs', hcode'⟩ := h' state hstate
  obtain ⟨s, hs, hcode⟩ := h s' hs'
  refine ⟨s, hs, ?_⟩
  rw [hcode', hcode, lastHeartbeat?_append]
  cases lastHeartbeat? node later <;> rfl

theorem tells_setState (d : Daemon) (n : UInt8) (s : NodeState) (node : UInt8) :
    Tells node d (d.setState n s) := by
  by_cases h : node = n
  · subst h
    intro state hstate
    simp only [setState, state?, SortedMap.get?_modify_self, Option.map_map,
      Option.map_eq_some_iff] at hstate
    obtain ⟨m, hm, rfl⟩ := hstate
    exact ⟨m.state, by rw [state?, hm, Option.map_some], by simp [setState, lastHeartbeat?,
      Event.heartbeatOf?]⟩
  · refine Tells.of_state?_eq (congrArg _ (SortedMap.get?_modify_ne h d.nodes _)) ?_
    simp [lastHeartbeat?, Event.heartbeatOf?, Ne.symm h]

/-- A command leaves a node in the last state that it has told. -/
theorem tells_command (d : Daemon) (n : UInt8) (c : NodeCommand) (node : UInt8) :
    Tells node d (d.command n c) := by
  unfold command
  split
  · exact (d.tells_setState n .initializing node).trans (tells_setState _ n .preOperational node)
  · exact d.tells_setState n c.target node

theorem tells_handle (d : Daemon) (r : Request) (node : UInt8) : Tells node d (d.handle r).2 := by
  have h := d.handling r
  generalize d.handle r = out at h ⊢
  cases h with
  | commanded => exact d.tells_command _ _ node
  | written => exact Tells.of_state?_eq (d.state?_put _ _ _ _) rfl
  | _ => exact Tells.of_state?_eq rfl rfl

theorem state?_seed (d : Daemon) (n : UInt8) (a : Address) (data : List UInt8) (node : UInt8) :
    (d.seed n a data).state? node = d.state? node := by
  have hseed (m : NodeStore) : (m.seed a data).state = m.state := by
    unfold NodeStore.seed
    split <;> rfl
  simp only [state?, seed, SortedMap.get?_modify]
  split
  · cases d.nodes.get? node <;> simp [hseed]
  · rfl

/-- Nothing but being added puts a node into a state that is not told. -/
theorem tells_meet (d : Daemon) (ho : ∀ c, o ≠ .add node c) : Tells node d (d.meet o).2 := by
  cases o with
  | request r => exact d.tells_handle r node
  | add n c =>
    have hne : node ≠ n := fun hn => ho c (hn ▸ rfl)
    exact Tells.of_state?_eq (congrArg _ (SortedMap.get?_insert_ne hne d.nodes _)) rfl
  | remove n =>
    intro state h
    simp only [meet, removeNode, state?, SortedMap.erase, SortedMap.get?_filterKeys] at h
    split at h
    · exact ⟨state, h, rfl⟩
    · contradiction
  | seed n a data => exact Tells.of_state?_eq (d.state?_seed n a data node) rfl
  | inject | clear => exact Tells.of_state?_eq rfl rfl

theorem tells_meetAll (d : Daemon) {occurrences : List Occurrence}
    (h : ∀ x ∈ (d.meetAll occurrences).1, ∀ c, x.1 ≠ .add node c) :
    Tells node d (d.meetAll occurrences).2 := by
  induction occurrences generalizing d with
  | nil => exact Tells.of_state?_eq rfl rfl
  | cons o rest ih =>
    simp only [meetAll, List.forall_mem_cons] at h ⊢
    exact (d.tells_meet h.1).trans (ih _ h.2)

/-- An acknowledged command has told a state of its node. -/
theorem isSome_lastHeartbeat? {code : UInt8}
    (h : (d.meet (.request (.command node code))).1 = some .ack) :
    (lastHeartbeat? node (d.meet (.request (.command node code))).2.2).isSome := by
  have hr := d.handling (.command node code)
  simp only [meet] at h ⊢
  generalize d.handle (.command node code) = out at h hr ⊢
  cases hr with
  | @commanded _ _ _ c hn hc =>
    rw [events_command]
    cases c <;> simp [NodeCommand.passage, lastHeartbeat?, Event.heartbeatOf?]
  | _ => simp at h

/-- A record falls apart where something has happened in between. -/
theorem exists_of_record (d : Daemon) {occurrences : List Occurrence}
    {before since : List (Occurrence × Option Reply)} {reply : Option Reply}
    (h : (d.meetAll occurrences).1 = before ++ (o, reply) :: since) :
    ∃ (d' : Daemon) (events : List Event) (rest : List Occurrence),
      (d'.meet o).1 = reply ∧ ((d'.meet o).2.1.meetAll rest).1 = since ∧
        (d.meetAll occurrences).2 =
          (((d'.meet o).2.1.meetAll rest).2.1,
            events ++ ((d'.meet o).2.2 ++ ((d'.meet o).2.1.meetAll rest).2.2)) := by
  induction before generalizing d occurrences with
  | nil =>
    cases occurrences with
    | nil => contradiction
    | cons p rest =>
      simp only [meetAll, List.nil_append, List.cons.injEq, Prod.mk.injEq] at h
      obtain ⟨⟨rfl, hreply⟩, hsince⟩ := h
      exact ⟨d, [], rest, hreply, hsince, rfl⟩
  | cons x before ih =>
    cases occurrences with
    | nil => contradiction
    | cons p rest =>
      simp only [meetAll, List.cons_append, List.cons.injEq] at h
      obtain ⟨d', events, rest', hreply, hsince, hout⟩ := ih _ h.2
      refine ⟨d', (d.meet p).2.2 ++ events, rest', hreply, hsince, ?_⟩
      simp only [meetAll, hout, List.append_assoc]

/-- The events tell the truth about the daemon. Whatever happens to it, the events are those due to the
acknowledged commands and emergencies, in order; and a node that is known and has acknowledged a command
since it was last added is in the state that the last heartbeat of it tells. -/
theorem events_truthful (d : Daemon) (occurrences : List Occurrence) :
    let (record, after, events) := d.meetAll occurrences
    events = record.flatMap due ∧
      ∀ before code since node state,
        record = before ++ (.request (.command node code), some .ack) :: since →
        (∀ x ∈ since, ∀ c, x.1 ≠ .add node c) → after.state? node = some state →
        lastHeartbeat? node events = some state.code := by
  refine ⟨d.events_meetAll occurrences, fun before code since node state hrecord hsince hstate => ?_⟩
  obtain ⟨d', events, rest, hreply, rfl, hout⟩ := d.exists_of_record hrecord
  have hcommand : Tells node d' (d'.meet (.request (.command node code))).2 :=
    d'.tells_meet fun _ => nofun
  simp only [hout] at hstate ⊢
  obtain ⟨s, -, hcode⟩ := hcommand.trans (tells_meetAll _ hsince) state hstate
  -- the command has told a state, so the last heartbeat is one from then on
  have hsome := isSome_lastHeartbeat?_append (isSome_lastHeartbeat? hreply)
    ((d'.meet (.request (.command node code))).2.1.meetAll rest).2.2
  obtain ⟨told, htold⟩ := Option.isSome_iff_exists.mp hsome
  simp only [htold, Option.getD_some] at hcode
  rw [lastHeartbeat?_append, htold, Option.some_or, hcode]

/-- One node is stopped, then silent and taken away; another one is reset in between. -/
theorem events_truthful_reset :
    let stop : Occurrence := .request (.command 1 0x02)
    let reset : Occurrence := .request (.command 2 0x81)
    let d : Daemon := { nodes := (SortedMap.empty.insert 1 {}).insert 2 {} }
    let (_, after, events) := d.meetAll [stop, .inject 1 .silent, reset, .remove 1, stop]
    events = [.heartbeat 1 0x04, .heartbeat 2 0x00, .heartbeat 2 0x7F] ∧
      after.state? 2 = some .preOperational ∧ lastHeartbeat? 2 events = some 0x7F := by
  intro stop reset d
  obtain ⟨hevents, hlast⟩ := events_truthful d [stop, .inject 1 .silent, reset, .remove 1, stop]
  refine ⟨hevents, rfl, ?_⟩
  exact hlast [(stop, some .ack), (.inject 1 .silent, none)] 0x81 [(.remove 1, none), (stop, none)] 2
    .preOperational rfl (by simp [stop]) rfl

end Daemon

end Canopen
