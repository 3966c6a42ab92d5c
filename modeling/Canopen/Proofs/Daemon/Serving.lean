import Canopen.Proofs.Connection.Dialogue
import Canopen.Proofs.Daemon.OverStream
import Canopen.Proofs.Daemon.Store
/-!
# A daemon at work behind a connection

The daemon reads the frames of requests off the stream one after another, handles them and sends what
answers them. When it reads a frame and when its answer comes in is left open: an answer may come in
after its request has ended or not at all, and the connection may be closed in between. The daemon is
at all times what the requests that it has read make of it, in their order (`Served.Sound`).
-/
namespace Canopen

def Connection.requestsOf (c : Connection) (ids : List Nat) : List Request :=
  ids.filterMap fun id => (c.calls[id]?).map Call.request

/-- A connection and the daemon behind it. -/
structure Served where
  dialogue : Dialogue := {}
  daemon : Daemon
  /-- What the daemon has sent on each frame that it has read. -/
  sent : List (Option Frame) := []
  deriving DecidableEq, Repr

namespace Served

inductive Turn where
  | act (a : Connection.Action)
  /-- The daemon reads a frame and serves it. -/
  | serve
  /-- What the daemon has sent on a frame comes in. -/
  | deliver (place : Nat)
  deriving DecidableEq, Repr

def connection (s : Served) : Connection := s.dialogue.connection

/-- The requests that the daemon has handled, in order. -/
def served (s : Served) : List Nat := s.dialogue.asked.take s.sent.length

def turn? (s : Served) : Turn → Option Served
  | .act a => (s.dialogue.turn? (.act a)).map fun dialogue => { s with dialogue }
  | .serve =>
    ((Frame.readAll s.connection.written).1[s.sent.length]?).map fun f =>
      let (reply, daemon, _) := s.daemon.serveFrame f
      { s with daemon, sent := s.sent ++ [reply] }
  | .deliver place =>
    (s.sent[place]?).join.bind fun f =>
      (s.dialogue.asked[place]?).bind fun id =>
        (s.dialogue.turn? (.answer id f)).map fun dialogue => { s with dialogue }

def run? (s : Served) : List Turn → Option Served
  | [] => some s
  | t :: rest => (s.turn? t).bind fun s => s.run? rest

/-- Holds of a request that the daemon has acknowledged, whether or not the client gets to know. -/
def Acknowledged (s : Served) (id : Nat) : Prop :=
  ∃ (place : Nat) (f : Frame), s.dialogue.asked[place]? = some id ∧ s.sent[place]? = some (some f) ∧
    Reply.ofFrame f = .ok .ack

end Served

section

variable {c c' : Connection} {a : Connection.Action}

/-- A step keeps the requests that have begun. -/
theorem Connection.Step.requestsOf_eq (hstep : c.Step a c') {ids : List Nat}
    (h : ∀ id ∈ ids, id < c.calls.length) : c'.requestsOf ids = c.requestsOf ids := by
  refine List.filterMap_congr fun id hid => ?_
  obtain ⟨call', hcall', hmove⟩ := hstep.move (List.getElem?_eq_getElem (h id hid))
  rw [hcall', List.getElem?_eq_getElem (h id hid), Option.map_some, Option.map_some, hmove.request_eq]

theorem Connection.requestsOf_append (c : Connection) (xs ys : List Nat) :
    c.requestsOf (xs ++ ys) = c.requestsOf xs ++ c.requestsOf ys := List.filterMap_append

theorem Connection.requestsOf_singleton {id : Nat} {call : Call} (h : c.calls[id]? = some call) :
    c.requestsOf [id] = [call.request] := by
  simp [requestsOf, h]

/-- A turn of a dialogue is a step of its connection, and what has been asked stays. -/
theorem Dialogue.Progress.exists_step {d d' : Dialogue} {t : Dialogue.Turn} (h : d.Progress t d') :
    ∃ a more, d.connection.Step a d'.connection ∧ d'.asked = d.asked ++ more := by
  cases h with
  | act _ hstep => exact ⟨_, _, hstep, rfl⟩
  | answer _ _ _ _ _ hstep => exact ⟨_, [], hstep, (List.append_nil _).symm⟩

end

namespace Served

/-- What the daemon sends on a request, if it is as requests have left it. -/
def replyTo (d : Daemon) (call : Call) : Option Frame :=
  (d.handle call.request).1.bind fun q => (q.toFrame call.request.messageId call.sequence).toOption

/-- What holds of a daemon behind a connection that has been a certain daemon at first. -/
structure Sound (first : Daemon) (s : Served) : Prop where
  coherent : s.dialogue.Coherent
  length_le : s.sent.length ≤ s.dialogue.asked.length
  daemon : s.daemon = first.handleAll (s.connection.requestsOf s.served)
  sent : ∀ (place id : Nat) (call : Call), s.served[place]? = some id → s.connection.calls[id]? = some call →
    s.sent[place]? =
      some (replyTo (first.handleAll (s.connection.requestsOf (s.served.take place))) call)

variable {first : Daemon} {s s' : Served}

theorem Sound.init (first : Daemon) : Sound first { daemon := first } where
  coherent := ⟨.init, .init, .init⟩
  length_le := Nat.le_refl 0
  daemon := rfl
  sent := by simp [served]

theorem lt_of_mem_served (h : s.dialogue.Coherent) {id : Nat} (hid : id ∈ s.served) :
    id < s.connection.calls.length :=
  h.outgoing.lt_of_mem (List.mem_of_mem_take hid)

/-- Where the connection takes a step, the daemon has nothing to do with it. -/
theorem Sound.dialogue (h : Sound first s) {t : Dialogue.Turn} {dialogue : Dialogue}
    (ht : s.dialogue.turn? t = some dialogue) : Sound first { s with dialogue } := by
  have hprogress := h.coherent.progress_of_turn? ht
  obtain ⟨a, more, hstep, hasked⟩ := hprogress.exists_step
  have hserved : { s with dialogue }.served = s.served := by
    rw [served, hasked, List.take_append_of_le_length h.length_le]
    rfl
  have hids (id : Nat) (hid : id ∈ s.served) := lt_of_mem_served h.coherent hid
  refine ⟨h.coherent.progress hprogress, ?_, ?_, fun place id call' hplace hcall' => ?_⟩
  · rw [hasked, List.length_append]
    exact Nat.le_add_right_of_le h.length_le
  · rw [hserved]
    exact h.daemon.trans (congrArg first.handleAll (hstep.requestsOf_eq hids).symm)
  · rw [hserved] at hplace ⊢
    have hid := hids id (List.mem_of_getElem? hplace)
    obtain ⟨moved, hmoved, hmove⟩ := hstep.move (List.getElem?_eq_getElem hid)
    obtain rfl : moved = call' := Option.some.inj (hmoved.symm.trans hcall')
    have hbefore : dialogue.connection.requestsOf (s.served.take place) =
        s.connection.requestsOf (s.served.take place) :=
      hstep.requestsOf_eq fun id hid => hids id (List.mem_of_mem_take hid)
    have hsame (d : Daemon) : replyTo d moved = replyTo d s.connection.calls[id] := by
      rw [replyTo, replyTo, hmove.request_eq, hmove.sequence_eq]
    refine (h.sent place id _ hplace (List.getElem?_eq_getElem hid)).trans ?_
    rw [hsame]
    exact congrArg (fun requests => some (replyTo (first.handleAll requests) _)) hbefore.symm

/-- The next frame that the daemon reads is that of the next request that has been asked. -/
theorem exists_next (h : s.dialogue.Coherent) {f : Frame}
    (hf : (Frame.readAll s.connection.written).1[s.sent.length]? = some f) :
    ∃ id call, s.dialogue.asked[s.sent.length]? = some id ∧ s.connection.calls[id]? = some call ∧
      f = call.frame := by
  have hheard := congrArg (·[s.sent.length]?) h.frames_heard
  simp only [List.getElem?_map, connection] at hheard hf
  rw [hf, Option.map_some] at hheard
  obtain ⟨id, hid, hframe⟩ := Option.map_eq_some_iff.mp hheard
  obtain ⟨call, hcall, hcallframe⟩ := Option.map_eq_some_iff.mp hframe
  rw [Dialogue.heard, List.getElem?_take] at hid
  split at hid
  · exact ⟨id, call, hid, hcall, hcallframe.symm⟩
  · contradiction

theorem Sound.serve (h : Sound first s) {f : Frame}
    (hf : (Frame.readAll s.connection.written).1[s.sent.length]? = some f) :
    Sound first { s with
      daemon := (s.daemon.serveFrame f).2.1
      sent := s.sent ++ [(s.daemon.serveFrame f).1] } := by
  obtain ⟨id, call, hid, hcall, rfl⟩ := exists_next h.coherent hf
  have hserve : s.daemon.serveFrame call.frame =
      (replyTo s.daemon call, (s.daemon.handle call.request).2) :=
    Daemon.serveFrame_toFrame s.daemon call.request call.sequence
  rw [hserve]
  have hlength : s.served.length = s.sent.length := List.length_take_of_le h.length_le
  generalize hnext : ({ s with
    daemon := (s.daemon.handle call.request).2.1
    sent := s.sent ++ [replyTo s.daemon call] } : Served) = next
  have hserved : next.served = s.served ++ [id] := by
    rw [← hnext, served, List.length_append, List.length_singleton, List.take_add_one, hid]
    rfl
  subst hnext
  refine ⟨h.coherent, ?_, ?_, fun place other call' hplace hcall' => ?_⟩
  · rw [List.length_append, List.length_singleton]
    exact (List.getElem?_eq_some_iff.mp hid).1
  · rw [hserved]
    change (s.daemon.handle call.request).2.1 =
      first.handleAll (s.connection.requestsOf (s.served ++ [id]))
    rw [Connection.requestsOf_append, Connection.requestsOf_singleton hcall,
      Daemon.handleAll_append, ← h.daemon]
    rfl
  · rw [hserved] at hplace ⊢
    change s.connection.calls[other]? = some call' at hcall'
    change (s.sent ++ [replyTo s.daemon call])[place]? = some (replyTo
      (first.handleAll (s.connection.requestsOf ((s.served ++ [id]).take place))) call')
    by_cases hlt : place < s.sent.length
    · rw [List.getElem?_append_left (by omega)] at hplace
      rw [List.getElem?_append_left hlt, List.take_append_of_le_length (by omega)]
      exact h.sent place other call' hplace hcall'
    · have hlast : place = s.sent.length := by
        have := (List.getElem?_eq_some_iff.mp hplace).1
        simp only [List.length_append, List.length_singleton] at this
        omega
      subst hlast
      rw [List.getElem?_append_right (by omega), hlength, Nat.sub_self] at hplace
      obtain rfl : id = other := by simpa using hplace
      obtain rfl : call = call' := Option.some.inj (hcall.symm.trans hcall')
      rw [List.getElem?_concat_length, List.take_left' hlength, ← h.daemon]

theorem Sound.turn (h : Sound first s) {t : Turn} (ht : s.turn? t = some s') : Sound first s' := by
  cases t with
  | act a =>
    obtain ⟨dialogue, hd, rfl⟩ := Option.map_eq_some_iff.mp ht
    exact h.dialogue hd
  | serve =>
    obtain ⟨f, hf, rfl⟩ := Option.map_eq_some_iff.mp ht
    exact h.serve hf
  | deliver place =>
    obtain ⟨f, -, ht⟩ := Option.bind_eq_some_iff.mp ht
    obtain ⟨id, -, ht⟩ := Option.bind_eq_some_iff.mp ht
    obtain ⟨dialogue, hd, rfl⟩ := Option.map_eq_some_iff.mp ht
    exact h.dialogue hd

/-- A turn is a step of the connection or leaves it as it is, and what has been asked stays. -/
theorem exists_step (h : s.dialogue.Coherent) {t : Turn} (ht : s.turn? t = some s') :
    (s'.connection = s.connection ∨ ∃ a, s.connection.Step a s'.connection) ∧
      ∃ more, s'.dialogue.asked = s.dialogue.asked ++ more := by
  have hdialogue {t : Dialogue.Turn} {dialogue : Dialogue}
      (ht : s.dialogue.turn? t = some dialogue) :
      (dialogue.connection = s.connection ∨ ∃ a, s.connection.Step a dialogue.connection) ∧
        ∃ more, dialogue.asked = s.dialogue.asked ++ more := by
    obtain ⟨a, more, hstep, hasked⟩ := (h.progress_of_turn? ht).exists_step
    exact ⟨.inr ⟨a, hstep⟩, more, hasked⟩
  cases t with
  | act a =>
    obtain ⟨dialogue, hd, rfl⟩ := Option.map_eq_some_iff.mp ht
    exact hdialogue hd
  | serve =>
    obtain ⟨f, -, rfl⟩ := Option.map_eq_some_iff.mp ht
    exact ⟨.inl rfl, [], (List.append_nil _).symm⟩
  | deliver place =>
    obtain ⟨f, -, ht⟩ := Option.bind_eq_some_iff.mp ht
    obtain ⟨id, -, ht⟩ := Option.bind_eq_some_iff.mp ht
    obtain ⟨dialogue, hd, rfl⟩ := Option.map_eq_some_iff.mp ht
    exact hdialogue hd

/-- No turn forgets a request. -/
theorem length_calls_le {t : Turn} (h : s.dialogue.Coherent)
    (ht : s.turn? t = some s') : s.connection.calls.length ≤ s'.connection.calls.length := by
  rcases (exists_step h ht).1 with hsame | ⟨a, hstep⟩
  · rw [hsame]
  · rcases hstep.begins with ⟨request, limit, -, hstart⟩ | ⟨-, -, hlength⟩
    · rw [hstart, Connection.calls_start, List.length_append]
      exact Nat.le_add_right _ _
    · exact Nat.le_of_eq hlength.symm

/-- What is there when a request has begun. -/
theorem connection_start {request : Request} {limit : Duration}
    (ht : s.turn? (.act (.start request limit)) = some s') :
    s'.connection = s.connection.start request limit ∧ s'.dialogue.asked = s.dialogue.asked ∧
      s'.daemon = s.daemon ∧ s'.sent = s.sent := by
  cases ht
  exact ⟨rfl, List.append_nil _, rfl, rfl⟩

/-- Steps of a connection that bring nothing in can be taken with the daemon behind it. -/
theorem exists_run_acts {actions : List Connection.Action} {connection : Connection}
    (hall : ∀ a ∈ actions, a.bringsReply = false)
    (hrun : s.connection.run? actions = some connection) :
    ∃ s', s.run? (actions.map .act) = some s' ∧ s'.connection = connection := by
  induction actions generalizing s with
  | nil =>
    cases hrun
    exact ⟨s, rfl, rfl⟩
  | cons a rest ih =>
    obtain ⟨next, hnext, hrest⟩ := Option.bind_eq_some_iff.mp hrun
    obtain ⟨ha, hall⟩ := List.forall_mem_cons.mp hall
    have hturn : s.turn? (.act a) = some { s with dialogue := { s.dialogue with
        connection := next
        asked := s.dialogue.asked ++ (s.connection.queues? a).toList } } := by
      have hstep : s.dialogue.connection.step? a = some next := hnext
      simp only [turn?, Dialogue.turn?, ha, Dialogue.act?, hstep]
      rfl
    rw [List.map_cons, run?, hturn, Option.bind_some]
    exact ih hall hrest

/-- The daemon has acknowledged a request if it has handled it so. -/
theorem Sound.acknowledged_iff (h : Sound first s) {place id : Nat} {call : Call}
    (hplace : s.served[place]? = some id) (hcall : s.connection.calls[id]? = some call) :
    s.Acknowledged id ↔
      ((first.handleAll (s.connection.requestsOf (s.served.take place))).handle call.request).1 =
        some .ack := by
  have hsent := h.sent place id call hplace hcall
  generalize first.handleAll (s.connection.requestsOf (s.served.take place)) = d at hsent ⊢
  have hasked : s.dialogue.asked[place]? = some id := by
    rw [served, List.getElem?_take] at hplace
    split at hplace
    · exact hplace
    · contradiction
  constructor
  · rintro ⟨other, f, hother, hf, hreply⟩
    obtain ⟨hlt, heq⟩ := List.getElem?_eq_some_iff.mp hasked
    obtain ⟨hlt', heq'⟩ := List.getElem?_eq_some_iff.mp hother
    obtain rfl : place = other :=
      h.coherent.outgoing.nodup.getElem_inj_iff.mp (heq.trans heq'.symm)
    obtain ⟨q, hq, hframe⟩ :=
      Option.bind_eq_some_iff.mp (Option.some.inj (hsent.symm.trans hf))
    cases hto : q.toFrame call.request.messageId call.sequence with
    | error e => simp [hto, Except.toOption] at hframe
    | ok g =>
      obtain rfl : g = f := by simpa [hto, Except.toOption] using hframe
      have hread := Reply.ofFrame_of_toFrame (Daemon.answers_of_handle hq) hto
      rw [hq, Except.ok.inj (hread.symm.trans hreply)]
  · intro hack
    have hanswers : Reply.answers .ack call.request.messageId := Daemon.answers_of_handle hack
    obtain ⟨f, hf, -⟩ :=
      Reply.exists_toFrame_of_fits (q := .ack) trivial call.request.messageId call.sequence
    refine ⟨place, f, hasked, ?_, Reply.ofFrame_of_toFrame hanswers hf⟩
    rw [hsent, replyTo, hack, Option.bind_some, hf]
    rfl

theorem Acknowledged.mem_served {id : Nat} (h : s.Acknowledged id) : id ∈ s.served := by
  obtain ⟨place, f, hasked, hf, -⟩ := h
  have hlt := (List.getElem?_eq_some_iff.mp hf).1
  have hserved : s.served[place]? = some id := by rwa [served, List.getElem?_take, if_pos hlt]
  exact List.mem_of_getElem? hserved

/-- A request that writes leaves the daemon as the other requests make it, or this with the entry
written, if it has been acknowledged; and it is the latter if no other request writes the entry. -/
theorem Sound.daemon_of_write (h : Sound first s) {id : Nat} {call : Call} {node : UInt8}
    {a : Address} {data : List UInt8} (hcall : s.connection.calls[id]? = some call)
    (hwrite : call.request = .writeEntry node a data) :
    let others := s.connection.requestsOf (s.served.filter (· ≠ id))
    (s.daemon = first.handleAll others ∨
      s.Acknowledged id ∧ s.daemon = (first.handleAll others).put node a data) ∧
    (s.Acknowledged id → (∀ written, .writeEntry node a written ∉ others) →
      s.daemon = (first.handleAll others).put node a data) := by
  by_cases hid : id ∈ s.served
  swap
  · have hothers : s.served.filter (· ≠ id) = s.served :=
      List.filter_eq_self.mpr fun other hother => decide_eq_true fun heq => hid (heq ▸ hother)
    rw [hothers]
    exact ⟨.inl h.daemon, fun hack => absurd hack.mem_served hid⟩
  obtain ⟨before, after, hsplit⟩ := List.append_of_mem hid
  have hnodup : (before ++ id :: after).Nodup :=
    hsplit ▸ h.coherent.outgoing.nodup.sublist (List.take_sublist ..)
  have hothers : s.served.filter (· ≠ id) = before ++ after := by
    obtain ⟨-, hafter, hbefore⟩ := List.nodup_append.mp hnodup
    have hkeep {ids : List Nat} (hids : ∀ other ∈ ids, other ≠ id) :
        ids.filter (· ≠ id) = ids := by
      simpa [List.filter_eq_self] using hids
    rw [hsplit, List.filter_append, List.filter_cons_of_neg (by simp),
      hkeep fun other hother => hbefore other hother id List.mem_cons_self,
      hkeep fun other hother heq => (List.nodup_cons.mp hafter).1 (heq ▸ hother)]
  have hdaemon := h.daemon
  have hplace : s.served[before.length]? = some id := by simp [hsplit]
  have hack := h.acknowledged_iff hplace hcall
  have htake : s.served.take before.length = before := by rw [hsplit, List.take_left]
  rw [htake, hwrite] at hack
  rw [hsplit, Connection.requestsOf_append, ← List.singleton_append, Connection.requestsOf_append,
    Connection.requestsOf_singleton hcall, hwrite, Daemon.handleAll_append,
    Daemon.handleAll_append] at hdaemon
  rw [hothers, Connection.requestsOf_append]
  dsimp only
  rw [Daemon.handleAll_append]
  generalize first.handleAll (s.connection.requestsOf before) = d at hdaemon hack ⊢
  change s.daemon = (d.handle (.writeEntry node a data)).2.1.handleAll _ at hdaemon
  rcases d.handle_writeEntry_snd node a data with ⟨hdone, hput⟩ | ⟨hundone, hsame⟩
  · obtain ⟨heither, halone⟩ := d.handleAll_put node a data (s.connection.requestsOf after)
    rw [hput] at hdaemon
    refine ⟨?_, fun _ hnone => hdaemon.trans (halone fun written hmem => ?_)⟩
    · rcases heither with hsame | hboth
      · exact .inl (hdaemon.trans hsame)
      · exact .inr ⟨hack.mpr hdone, hdaemon.trans hboth⟩
    · exact hnone written (List.mem_append_right _ hmem)
  · rw [hsame] at hdaemon
    exact ⟨.inl hdaemon, fun hacked => absurd (hack.mp hacked) hundone⟩

end Served

end Canopen
