import Canopen.Connection.Stream
import Canopen.Proofs.Connection.Numbering
import Canopen.Proofs.Frame.Stream
/-!
# What comes in on a connection

The receiver goes by numbers alone: a frame without the number of events is for the request that
waits under its number, whether it can be read or not, and a frame with the number of events is told
if it can be read. So whatever comes in, each request hears the first frame with its number and
nothing else (`Call.hearFirst`, `Connection.after`), and a frame that is left out of those that come
in is missed by the requests with its number alone (`incoming_isolated`).
-/
namespace Canopen

namespace Frame

/-- The event of a frame, if it is one that can be read. -/
def event? (f : Frame) : Option Event := if f.isEvent then (Event.ofFrame f).toOption else none

/-- Holds of the frames that are for the request with a number. -/
def isFor (f : Frame) (sequence : UInt16) : Bool := !f.isEvent && f.sequence == sequence

theorem isFor_eq_beq {s : UInt16} (hs : s ≠ eventSequence) (f : Frame) :
    f.isFor s = (f.sequence == s) := by
  by_cases h : f.sequence = s
  · simp [isFor, isEvent, h, hs]
  · simp [isFor, h]

end Frame

namespace Call

/-- What becomes of a request when frames come in one after another. -/
def hearFirst (frames : List Frame) (call : Call) : Call :=
  match frames.find? fun f => f.isFor call.sequence with
  | some f => call.hear (· == call.sequence) (Inbox.ofFrame f)
  | none => call

theorem hearFirst_of_not_isPending {call : Call} (h : call.isPending = false)
    (frames : List Frame) : call.hearFirst frames = call := by
  unfold hearFirst
  split
  · exact hear_eq_self (by simp [h])
  · rfl

/-- Frames change nothing of a request but what has come in for it. -/
theorem exists_hearFirst_eq (frames : List Frame) (call : Call) :
    ∃ inbox, call.hearFirst frames = { call with inbox } := by
  unfold hearFirst hear
  split
  · split
    · exact ⟨_, rfl⟩
    · exact ⟨call.inbox, rfl⟩
  · exact ⟨call.inbox, rfl⟩

/-- The first frame for a request is heard, and later ones are not. -/
theorem hearFirst_cons (f : Frame) (frames : List Frame) (call : Call) :
    call.hearFirst (f :: frames) = (call.hearFirst [f]).hearFirst frames := by
  by_cases hf : f.isFor call.sequence
  · have hone : call.hearFirst [f] = call.hear (· == call.sequence) (Inbox.ofFrame f) := by
      simp [hearFirst, hf]
    -- who has heard something waits no more, so the other frames pass it by
    have hdone : (call.hearFirst [f]).isPending = false := by
      rw [hone, isPending_hear (Inbox.ofFrame_ne_empty f)]
      simp
    rw [hearFirst_of_not_isPending hdone, hone]
    simp [hearFirst, hf]
  · have hone : call.hearFirst [f] = call := by simp [hearFirst, hf]
    rw [hone]
    simp [hearFirst, hf]

end Call

namespace Connection

/-- What becomes of a connection when frames come in one after another. -/
def after (c : Connection) (frames : List Frame) : Connection :=
  { c with
    told := c.told ++ frames.filterMap Frame.event?
    slots := c.slots.filter fun slot => !frames.any fun f => f.isFor slot.1
    calls := c.calls.map (Call.hearFirst frames) }

variable {c : Connection}

@[simp] theorem after_nil (c : Connection) : c.after [] = c := by
  have hslots : (c.slots.filter fun _ => true) = c.slots := List.filter_eq_self.mpr (by simp)
  have hcalls : c.calls.map (Call.hearFirst []) = c.calls := List.map_id c.calls
  simp [after, hslots, hcalls]

theorem after_cons (c : Connection) (f : Frame) (frames : List Frame) :
    c.after (f :: frames) = (c.after [f]).after frames := by
  have htold : (f :: frames).filterMap Frame.event? =
      [f].filterMap Frame.event? ++ frames.filterMap Frame.event? := by
    rw [← List.filterMap_append]
    rfl
  have hcalls : c.calls.map (Call.hearFirst (f :: frames)) =
      (c.calls.map (Call.hearFirst [f])).map (Call.hearFirst frames) := by
    rw [List.map_map]
    exact List.map_congr_left fun call _ => Call.hearFirst_cons f frames call
  simp only [after, htold, hcalls, List.append_assoc, List.filter_filter]
  congr 1
  refine List.filter_congr fun slot _ => ?_
  simp [Bool.and_comm]

/-- The receiver makes of a frame what the frame brings to whom it is for. -/
theorem Consistent.receive_eq_after (h : c.Consistent) (f : Frame) : c.receive f = c.after [f] := by
  cases hf : f.isEvent with
  | true =>
    have hfor (s : UInt16) : f.isFor s = false := by simp [Frame.isFor, hf]
    have hcalls : c.calls.map (Call.hearFirst [f]) = c.calls :=
      (List.map_congr_left fun call _ => by simp [Call.hearFirst, hfor]).trans (List.map_id c.calls)
    have hslots : (c.slots.filter fun slot => !([f].any fun f => f.isFor slot.1)) = c.slots :=
      List.filter_eq_self.mpr (by simp [hfor])
    rw [after, hcalls, hslots]
    simp only [receive, hf, if_true, Frame.event?, List.filterMap_cons, List.filterMap_nil]
    cases Event.ofFrame f <;> simp [Except.toOption]
  | false =>
    have hfor (s : UInt16) : f.isFor s = (s == f.sequence) := by
      simp [Frame.isFor, hf, Bool.beq_comm]
    have hcalls : c.calls.map (Call.hearFirst [f]) =
        c.calls.map (Call.hear (· == f.sequence) (Inbox.ofFrame f)) := by
      refine List.map_congr_left fun call _ => ?_
      by_cases hs : call.sequence = f.sequence
      · simp [Call.hearFirst, hfor, hs]
      · have hself : call.hear (· == f.sequence) (Inbox.ofFrame f) = call :=
          Call.hear_eq_self (by simp [hs])
        simp [Call.hearFirst, hfor, hs, hself]
    have htold : [f].filterMap Frame.event? = [] := by simp [Frame.event?, hf]
    rw [h.receive_eq hf, after, hcalls, htold, List.append_nil, Connection.settle]
    simp [hfor]

theorem Consistent.step?_receive (h : c.Consistent) (hr : c.receiver = .running) (f : Frame) :
    c.step? (.receive f) = some (c.after [f]) := by
  simp [step?, hr, h.receive_eq_after]

/-- The receiver takes in any frames, one after another. -/
theorem Consistent.run?_receive (h : c.Consistent) (hr : c.receiver = .running)
    (frames : List Frame) : c.run? (frames.map Action.receive) = some (c.after frames) := by
  induction frames generalizing c with
  | nil => simp
  | cons f frames ih =>
    have hstep := h.step?_receive hr f
    have hnext := ih (h.step (h.step_of_step? hstep)) hr
    rw [List.map_cons, run?_cons, hstep, Option.bind_some, hnext, ← after_cons]

theorem receiveAll_of_ok (c : Connection) {stream rest : List UInt8} {f : Frame}
    (hread : Frame.read stream = .ok (f, rest)) :
    c.receiveAll stream = (c.attempt (.receive f)).receiveAll rest := by
  rw [receiveAll]
  split <;> simp_all

/-- Whatever whole frames the stream begins with, the bytes after them are read as they would be at
its beginning. -/
theorem Consistent.receiveAll_encoded_append (h : c.Consistent) (hr : c.receiver = .running)
    {frames : List Frame} (hlen : ∀ f ∈ frames, f.bodyLength ≤ Frame.maxLength)
    (rest : List UInt8) :
    c.receiveAll (frames.flatMap Frame.encode ++ rest) = (c.after frames).receiveAll rest := by
  induction frames generalizing c with
  | nil => simp
  | cons f frames ih =>
    have hstep := h.step?_receive hr f
    have hread := Frame.read_encode_append (hlen f (by simp)) (frames.flatMap Frame.encode ++ rest)
    have hnext := ih (h.step (h.step_of_step? hstep)) hr fun g hg => hlen g (by simp [hg])
    rw [List.flatMap_cons, List.append_assoc, c.receiveAll_of_ok hread, attempt, hstep,
      Option.getD_some, hnext, ← after_cons]

/-- What a frame ends a request with that waits for it. -/
def outcomeOf (c : Connection) (call : Call) (f : Frame) : Outcome :=
  match Reply.ofFrame f with
  | .ok r => .answered r
  | .error _ => .failed (c.lossError call)

/-- Every request that waits is completed by the first frame with its number, if there is one, and
its outcome is that frame's. -/
def CompletedByFirst (c : Connection) (frames : List Frame) (c' : Connection) : Prop :=
  ∀ id call, c.calls[id]? = some call → call.isPending →
    (∀ f, frames.find? (fun f => f.sequence == call.sequence) = some f →
      c'.calls[id]? = some { call with inbox := Inbox.ofFrame f }) ∧
    ((∀ f ∈ frames, f.sequence ≠ call.sequence) → c'.calls[id]? = some call) ∧
    (call.stage = .waiting →
      ((∃ ended, c'.step? (.collect id) = some ended) ↔ ∃ f ∈ frames, f.sequence = call.sequence) ∧
      ∀ f ended, frames.find? (fun f => f.sequence == call.sequence) = some f →
        c'.step? (.collect id) = some ended →
        ∃ last, ended.calls[id]? = some last ∧ last.stage = .finished (c.outcomeOf call f))

/-- The events told are those of the frames with the number of events that can be read, in order. -/
def ToldExactly (c : Connection) (frames : List Frame) (c' : Connection) : Prop :=
  c'.told = c.told ++ frames.filterMap Frame.event?

/-- Besides, only slots under the numbers of the frames are taken away. The connection is as up as it
was and is served as it was, and the requests that do not wait are as they were. -/
def KeptOtherwise (c : Connection) (frames : List Frame) (c' : Connection) : Prop :=
  (∃ told slots calls, c' = { c with told, slots, calls }) ∧
    (∀ slot, slot ∈ c'.slots ↔ slot ∈ c.slots ∧ ∀ f ∈ frames, f.sequence ≠ slot.1) ∧
    c'.calls.length = c.calls.length ∧
    ∀ (id : Nat) (call : Call), c.calls[id]? = some call → call.isPending = false →
      c'.calls[id]? = some call

/-- A connection apart from what has come in under a number. -/
def apartFrom (s : UInt16) (c : Connection) : Connection :=
  { c with
    told := if s = Frame.eventSequence then [] else c.told
    slots := c.slots.filter fun slot => slot.1 != s
    calls := c.calls.map fun call => if call.sequence = s then { call with inbox := .empty } else call }

@[simp] theorem getElem?_after (c : Connection) (frames : List Frame) (id : Nat) :
    (c.after frames).calls[id]? = (c.calls[id]?).map (Call.hearFirst frames) := List.getElem?_map

theorem Consistent.completedByFirst (h : c.Consistent) (hr : c.receiver = .running)
    (hn : ∀ call ∈ c.calls, call.isPending → call.sequence ≠ Frame.eventSequence)
    (frames : List Frame) : c.CompletedByFirst frames (c.after frames) := by
  intro id call hcall hp
  have h' := h.run? (h.run?_receive hr frames)
  have hfor : (fun f : Frame => f.isFor call.sequence) = fun f => f.sequence == call.sequence :=
    funext (Frame.isFor_eq_beq (hn call (List.mem_of_getElem? hcall) hp))
  have hempty : call.inbox = .empty := (Call.isPending_iff.mp hp).2
  cases hfirst : frames.find? fun f => f.sequence == call.sequence with
  | none =>
    have hnone : ∀ f ∈ frames, f.sequence ≠ call.sequence := by
      simpa using List.find?_eq_none.mp hfirst
    have hcall' : (c.after frames).calls[id]? = some call := by
      simp [hcall, Call.hearFirst, hfor, hfirst]
    refine ⟨by simp, fun _ => hcall', fun hs => ⟨?_, by simp⟩⟩
    have hstuck : (c.after frames).step? (.collect id) = none := by
      simp [step?, stepCall?, hcall', hs, hempty]
    simpa [hstuck] using hnone
  | some f =>
    have hf : f ∈ frames ∧ f.sequence = call.sequence :=
      ⟨List.mem_of_find?_eq_some hfirst, by simpa using List.find?_some hfirst⟩
    have hheard : call.hear (· == call.sequence) (Inbox.ofFrame f) =
        { call with inbox := Inbox.ofFrame f } := Call.hear_of hp (by simp)
    have hcall' : (c.after frames).calls[id]? = some { call with inbox := Inbox.ofFrame f } := by
      simp [hcall, Call.hearFirst, hfor, hfirst, hheard]
    have hend (hs : call.stage = .waiting) : (c.after frames).Ending id
        { call with inbox := Inbox.ofFrame f } (.collect id) (c.outcomeOf call f) := by
      unfold outcomeOf
      cases hreply : Reply.ofFrame f with
      | ok r => exact .answered hs (Inbox.ofFrame_eq_reply_iff.mpr hreply)
      | error e => exact .lost hs (by simp [Inbox.ofFrame, hreply])
    refine ⟨?_, fun hnone => absurd hf.2 (hnone f hf.1), fun hs => ?_⟩
    · rintro _ ⟨⟩
      exact hcall'
    · have hstep := h'.step?_of_step (.finish hcall' (hend hs))
      refine ⟨iff_of_true ⟨_, hstep⟩ ⟨f, hf⟩, ?_⟩
      rintro _ ended ⟨⟩ hended
      obtain rfl := Option.some.inj (hstep.symm.trans hended)
      simp [hcall']

theorem Consistent.keptOtherwise (h : c.Consistent)
    (hn : ∀ call ∈ c.calls, call.isPending → call.sequence ≠ Frame.eventSequence)
    (frames : List Frame) : c.KeptOtherwise frames (c.after frames) := by
  -- a slot has the number of a request that waits, which is not the number of events
  refine ⟨⟨_, _, _, rfl⟩, fun slot => ?_, List.length_map _, fun id call hcall hp => ?_⟩
  · simp only [after, List.mem_filter, Bool.not_eq_true', List.any_eq_false, and_congr_right_iff]
    intro hslot
    obtain ⟨call, hcall, hseq, hp⟩ := (h.mem_slots slot.1 slot.2).mp hslot
    have hne : slot.1 ≠ Frame.eventSequence := hseq ▸ hn call (List.mem_of_getElem? hcall) hp
    simp [Frame.isFor_eq_beq hne]
  · simp [hcall, Call.hearFirst_of_not_isPending hp]

/-- Who has not the number of a frame misses nothing when the frame is left out. -/
theorem apartFrom_after (c : Connection) (before : List Frame) (f : Frame) (later : List Frame) :
    (c.after (before ++ f :: later)).apartFrom f.sequence =
      (c.after (before ++ later)).apartFrom f.sequence := by
  have hfor {s : UInt16} (hs : s ≠ f.sequence) : f.isFor s = false := by
    simp [Frame.isFor, Ne.symm hs]
  have htold (hf : f.sequence ≠ Frame.eventSequence) : f.event? = none := by
    simp [Frame.event?, Frame.isEvent, hf]
  simp only [after, apartFrom, List.filter_filter, List.map_map]
  congr 1
  · refine List.filter_congr fun slot _ => ?_
    by_cases hs : slot.1 = f.sequence
    · simp [hs]
    · simp [hfor hs]
  · refine List.map_congr_left fun call _ => ?_
    by_cases hs : call.sequence = f.sequence
    · obtain ⟨x, hx⟩ := call.exists_hearFirst_eq (before ++ f :: later)
      obtain ⟨y, hy⟩ := call.exists_hearFirst_eq (before ++ later)
      simp [hx, hy, hs]
    · have hsame : call.hearFirst (before ++ f :: later) = call.hearFirst (before ++ later) := by
        simp [Call.hearFirst, hfor hs]
      simp [hsame]
  · by_cases hf : f.sequence = Frame.eventSequence
    · simp [hf]
    · simp [hf, htold hf]

/-- What comes in touches only what it names. Whatever whole frames come in, in whatever order, on a
connection whose receiver runs, every request that waits is completed by the first frame with its
number and by no other, the events told are those that can be read, and all else stays as it is, so
that the bytes after the frames are read like those at the beginning of a stream. And whichever frame
among others is left out, nobody but who has its number can tell.

This covers the connections that have come about (`Reachable.consistent`, `Reachable.sequence_ne`)
and any requests that wait under numbers of their own (`Consistent.awaiting`). -/
theorem incoming_isolated (h : c.Consistent) (hr : c.receiver = .running)
    (hn : ∀ call ∈ c.calls, call.isPending → call.sequence ≠ Frame.eventSequence) :
    (∀ frames : List Frame, ∃ c', c.run? (frames.map Action.receive) = some c' ∧
      ((∀ f ∈ frames, f.bodyLength ≤ Frame.maxLength) → ∀ rest,
        c.receiveAll (frames.flatMap Frame.encode ++ rest) = c'.receiveAll rest) ∧
      c.CompletedByFirst frames c' ∧ c.ToldExactly frames c' ∧ c.KeptOtherwise frames c') ∧
    ∀ before f later, ∃ d e,
      c.run? ((before ++ f :: later).map Action.receive) = some d ∧
      c.run? ((before ++ later).map Action.receive) = some e ∧
      d.apartFrom f.sequence = e.apartFrom f.sequence :=
  ⟨fun frames => ⟨c.after frames, h.run?_receive hr frames,
      fun hlen rest => h.receiveAll_encoded_append hr hlen rest,
      h.completedByFirst hr hn frames, rfl, h.keptOtherwise hn frames⟩,
    fun before f later => ⟨_, _, h.run?_receive hr _, h.run?_receive hr _,
      c.apartFrom_after before f later⟩⟩

/-- A new connection but for the requests that wait on it. -/
def awaiting (calls : List Call) : Connection where
  calls := calls
  slots := calls.mapIdx fun id call => (call.sequence, id)

/-- Any requests can wait together that have numbers of their own. -/
theorem Consistent.awaiting {calls : List Call}
    (hw : ∀ call ∈ calls, call.stage = .waiting ∧ call.inbox = .empty)
    (hd : (calls.map Call.sequence).Nodup) : (awaiting calls).Consistent := by
  have hrunning (party : Party) : (Connection.awaiting calls).condition party = .running := by
    cases party <;> rfl
  refine ⟨?_, fun s id => ?_, fun call hcall hs => ?_, fun party _ => hrunning party,
    fun party hparty => ?_⟩
  · have hnumbers : (Connection.awaiting calls).slots.map Prod.fst = calls.map Call.sequence :=
      List.ext_getElem? fun id => by simp [Connection.awaiting, Function.comp_def]
    rw [hnumbers]
    exact hd
  · have hp (call : Call) (hcall : call ∈ calls) : call.isPending := by
      obtain ⟨hs, hi⟩ := hw call hcall
      simp [Call.isPending_iff, Call.hasListed_iff, hs, hi]
    simp only [Connection.awaiting, List.mem_mapIdx, Prod.mk.injEq]
    constructor
    · rintro ⟨i, hi, rfl, rfl⟩
      exact ⟨_, List.getElem?_eq_getElem hi, rfl, hp _ (List.getElem_mem hi)⟩
    · rintro ⟨call, hcall, rfl, -⟩
      obtain ⟨hi, rfl⟩ := List.getElem?_eq_some_iff.mp hcall
      exact ⟨id, hi, rfl, rfl⟩
  · simp [(hw call hcall).1] at hs
  · simp [hrunning] at hparty

def threeWaiting : List Call :=
  [⟨.queryState 1, ⟨1000⟩, 7, .waiting, .empty⟩, ⟨.queryState 2, ⟨1000⟩, 8, .waiting, .empty⟩,
    ⟨.queryState 3, ⟨1000⟩, 9, .waiting, .empty⟩]

/-- Two replies to the third of them, one to the second that cannot be read, one to nobody, and two
events, of which the second can be read. -/
def mixedFrames : List Frame :=
  [⟨0x06, 9, [5]⟩, ⟨0x06, 8, []⟩, ⟨0x90, 0, [4]⟩, ⟨0x06, 9, [127]⟩, ⟨0x07, 3, []⟩, ⟨0x90, 0, [4, 5]⟩]

theorem incoming_isolated_threeWaiting :
    ∃ c', (awaiting threeWaiting).run? (mixedFrames.map Action.receive) = some c' ∧
      (awaiting threeWaiting).CompletedByFirst mixedFrames c' ∧
      c'.calls.map Call.inbox = [.empty, .dropped, .reply (.state 5)] ∧
      c'.told = [.heartbeat 4 5] ∧ (awaiting threeWaiting).KeptOtherwise mixedFrames c' := by
  have h : (awaiting threeWaiting).Consistent :=
    .awaiting (by decide) (by decide)
  have hn : ∀ call ∈ (awaiting threeWaiting).calls, call.isPending →
      call.sequence ≠ Frame.eventSequence := by decide
  obtain ⟨c', hrun, -, hfirst, htold, hkept⟩ := (incoming_isolated h rfl hn).1 mixedFrames
  refine ⟨c', hrun, hfirst, ?_, htold, hkept⟩
  rw [h.run?_receive rfl, Option.some.injEq] at hrun
  rw [← hrun]
  decide

end Connection
end Canopen
