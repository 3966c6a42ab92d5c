import Canopen.Proofs.Connection.Move
import Canopen.Proofs.Frame.Stream
import Canopen.Proofs.Request.Codec
/-!
# What goes out on a connection

Frames are queued whole and written whole, in the order in which they were queued. Giving a request
up, at whatever time, takes nothing back and leaves nothing half done, so the stream is at all times
the beginning of the encoded queue, and the daemon reads the requests off it as they were queued.
-/
namespace Canopen

namespace Connection

/-- The request whose frame an action queues. -/
def queues? (c : Connection) : Action → Option Nat
  | .queue id => if c.writer = .ended then none else some id
  | _ => none

@[simp] theorem queues?_receive (c : Connection) (f : Frame) : c.queues? (.receive f) = none := rfl

/-- The requests whose frames are queued along a run, in order. -/
def queuings (c : Connection) : List Action → List Nat
  | [] => []
  | a :: rest =>
    match c.step? a with
    | some next => (c.queues? a).toList ++ next.queuings rest
    | none => []

def frame? (c : Connection) (id : Nat) : Option Frame := (c.calls[id]?).map Call.frame

/-- Everything that an action can make of what goes out. -/
inductive Outflow (c : Connection) (a : Action) (c' : Connection) : Prop where
  | still (hid : c.queues? a = none) (hq : c'.queued = c.queued) (ht : c'.taken = c.taken)
      (hs : c'.written ++ c'.unwritten = c.written ++ c.unwritten)
  | queue {id : Nat} {call : Call} (hid : c.queues? a = some id) (hcall : c.calls[id]? = some call)
      (hadm : call.stage = .admitted)
      (hwait : c'.calls[id]? = some { call with stage := .waiting })
      (hq : c'.queued = c.queued ++ [call.frame])
      (ht : c'.taken = c.taken) (hs : c'.written ++ c'.unwritten = c.written ++ c.unwritten)
  | take {f : Frame} (hid : c.queues? a = none) (hf : c.queued[c.taken]? = some f)
      (hq : c'.queued = c.queued) (ht : c'.taken = c.taken + 1)
      (hs : c'.written ++ c'.unwritten = c.written ++ c.unwritten ++ f.encode)

variable {c c' : Connection} {a : Action}

theorem Step.outflow (hstep : c.Step a c') : Outflow c a c' := by
  cases hstep with
  | queue hcall hs hw => exact .queue (if_neg hw) hcall hs (by simp [hcall]) rfl rfl rfl
  | finish _ hend =>
    refine .still ?_ rfl rfl rfl
    cases hend with
    | closed _ hw => exact if_pos hw
    | _ => rfl
  | takeFrame _ hu hf => exact .take rfl hf rfl rfl (by simp [hu])
  | write => exact .still rfl rfl rfl (by simp)
  | @cut party | @clear party => cases party <;> exact .still rfl rfl rfl rfl
  | _ => exact .still rfl rfl rfl rfl

/-- A step keeps the frames of the requests that have begun. -/
theorem Step.frame?_eq (hstep : c.Step a c') {id : Nat} {f : Frame}
    (hf : c.frame? id = some f) : c'.frame? id = some f := by
  obtain ⟨call, hcall, rfl⟩ := Option.map_eq_some_iff.mp hf
  obtain ⟨call', hcall', hmove⟩ := hstep.move hcall
  rw [frame?, hcall', Option.map_some, hmove.frame_eq]

/-- What goes out is what the given requests have queued, in their order. -/
structure Outgoing (ids : List Nat) (c : Connection) : Prop where
  nodup : ids.Nodup
  frames : ids.map c.frame? = c.queued.map some
  /-- A request that has queued its frame never comes to queue it again. -/
  past : ∀ id ∈ ids, ∀ call : Call, c.calls[id]? = some call →
    call.stage = .waiting ∨ call.isOpen = false
  /-- No request that is too long stays open. -/
  fits : ∀ call ∈ c.calls, call.isOpen → call.frame.bodyLength ≤ Frame.maxLength
  short : ∀ f ∈ c.queued, f.bodyLength ≤ Frame.maxLength
  taken : c.taken ≤ c.queued.length
  stream : c.written ++ c.unwritten = (c.queued.take c.taken).flatMap Frame.encode

theorem Outgoing.init : Outgoing [] {} := by
  refine ⟨by simp, by simp, by simp, by simp, by simp, by simp, by simp⟩

/-- A request that begins and can travel in a frame makes a frame that is not too long. -/
theorem bodyLength_begin_le {counter : UInt16} {request : Request} {limit : Duration}
    (ho : (Call.begin counter request limit).isOpen) :
    (Call.begin counter request limit).frame.bodyLength ≤ Frame.maxLength := by
  cases hs : request.sendFault? with
  | some fault => simp [Call.begin, Call.isOpen, hs] at ho
  | none =>
    simp only [Request.sendFault?] at hs
    split at hs
    · contradiction
    · rename_i hle
      exact Nat.le_of_not_lt hle

namespace Outgoing

theorem exists_frame {ids : List Nat} (ho : Outgoing ids c) {id : Nat} (hid : id ∈ ids) :
    ∃ f ∈ c.queued, c.frame? id = some f := by
  have hmem : c.frame? id ∈ c.queued.map some := ho.frames ▸ List.mem_map_of_mem hid
  obtain ⟨f, hf, heq⟩ := List.mem_map.mp hmem
  exact ⟨f, hf, heq.symm⟩

theorem lt_of_mem {ids : List Nat} (ho : Outgoing ids c) {id : Nat} (hid : id ∈ ids) :
    id < c.calls.length := by
  obtain ⟨f, -, hf⟩ := ho.exists_frame hid
  obtain ⟨call, hcall, -⟩ := Option.map_eq_some_iff.mp hf
  exact (List.getElem?_eq_some_iff.mp hcall).1

variable {ids : List Nat} (ho : Outgoing ids c) (hstep : c.Step a c')
include ho hstep

theorem fits_step : ∀ call ∈ c'.calls, call.isOpen → call.frame.bodyLength ≤ Frame.maxLength := by
  intro call' hmem hopen
  obtain ⟨id, hcall'⟩ := List.getElem?_of_mem hmem
  rcases hstep.exists_move hcall' with ⟨call, hcall, hmove⟩ | ⟨_, _, -, -, -, rfl⟩
  · rw [hmove.frame_eq]
    exact ho.fits call (List.mem_of_getElem? hcall) (hmove.isOpen_of hopen)
  · exact bodyLength_begin_le hopen

theorem frames_step : ids.map c'.frame? = c.queued.map some := by
  rw [← ho.frames]
  refine List.map_congr_left fun id hid => ?_
  obtain ⟨f, -, hf⟩ := ho.exists_frame hid
  rw [hf, hstep.frame?_eq hf]

theorem past_step : ∀ id ∈ ids, ∀ call : Call, c'.calls[id]? = some call →
    call.stage = .waiting ∨ call.isOpen = false := by
  intro id hid call' hcall'
  rcases hstep.exists_move hcall' with ⟨call, hcall, hmove⟩ | ⟨_, _, -, -, rfl, -⟩
  · exact hmove.hasQueued (ho.past id hid call hcall)
  · exact absurd (ho.lt_of_mem hid) (Nat.lt_irrefl _)

theorem step : Outgoing (ids ++ (c.queues? a).toList) c' := by
  have hfits := ho.fits_step hstep
  have hframes := ho.frames_step hstep
  have hpast := ho.past_step hstep
  cases hstep.outflow with
  | still hid hq ht hs =>
    rw [hid, Option.toList_none, List.append_nil]
    refine ⟨ho.nodup, by rw [hframes, hq], hpast, hfits, by rw [hq]; exact ho.short, ?_, ?_⟩
    · rw [ht, hq]; exact ho.taken
    · rw [hs, hq, ht]; exact ho.stream
  | take hid hf hq ht hs =>
    rw [hid, Option.toList_none, List.append_nil]
    refine ⟨ho.nodup, by rw [hframes, hq], hpast, hfits, by rw [hq]; exact ho.short, ?_, ?_⟩
    · have := (List.getElem?_eq_some_iff.mp hf).1
      rw [ht, hq]
      omega
    · rw [hs, hq, ht, List.take_add_one, hf, ho.stream]
      simp
  | @queue id call hid hcall hadm hwait hq ht hs =>
    have hopen : call.isOpen := by simp [Call.isOpen, hadm]
    have hnew : id ∉ ids := fun hmem => by
      rcases ho.past id hmem call hcall with hw | hw <;> simp [hadm, Call.isOpen] at hw
    have hlater : c'.frame? id = some call.frame :=
      hstep.frame?_eq (by rw [frame?, hcall, Option.map_some])
    rw [hid, Option.toList_some]
    refine ⟨?_, ?_, ?_, hfits, ?_, ?_, ?_⟩
    · rw [List.nodup_append]
      refine ⟨ho.nodup, by simp, fun i hi j hj => ?_⟩
      rw [List.mem_singleton.mp hj]
      exact fun heq => hnew (heq ▸ hi)
    · rw [List.map_append, hframes, hq, List.map_append, List.map_singleton, hlater,
        List.map_singleton]
    · intro other hother call' hcall'
      rcases List.mem_append.mp hother with hother | hother
      · exact hpast other hother call' hcall'
      · rw [List.mem_singleton.mp hother, hwait, Option.some.injEq] at hcall'
        exact .inl (hcall' ▸ rfl)
    · intro f hf
      rw [hq, List.mem_append, List.mem_singleton] at hf
      rcases hf with hf | rfl
      · exact ho.short f hf
      · exact ho.fits call (List.mem_of_getElem? hcall) hopen
    · have := ho.taken
      rw [ht, hq, List.length_append]
      omega
    · rw [hs, ht, hq, List.take_append_of_le_length ho.taken]
      exact ho.stream

end Outgoing

/-- What has been queued along a run is queued once and has gone out in order. -/
theorem Outgoing.run? {ids : List Nat} {actions : List Action} (ho : Outgoing ids c)
    (h : c.Consistent) (hrun : c.run? actions = some c') :
    Outgoing (ids ++ c.queuings actions) c' := by
  induction actions generalizing c ids with
  | nil =>
    cases hrun
    simpa [queuings] using ho
  | cons a rest ih =>
    obtain ⟨next, hnext, hrest⟩ := Option.bind_eq_some_iff.mp hrun
    have hstep := h.step_of_step? hnext
    have := ih (ho.step hstep) (h.step hstep) hrest
    simpa [queuings, hnext] using this

/-- The requests of a connection are those that have begun, in order and as they were given. -/
theorem Step.requests_eq (hstep : c.Step a c') :
    c'.calls.map Call.request = c.calls.map Call.request ++ a.request?.toList := by
  rcases hstep.begins with ⟨request, limit, rfl, rfl⟩ | ⟨hnone, -, hlen⟩
  · rw [calls_start, List.map_append]
    rfl
  · rw [hnone, Option.toList_none, List.append_nil]
    refine List.ext_getElem? fun id => ?_
    rw [List.getElem?_map, List.getElem?_map]
    cases hcall : c.calls[id]? with
    | none =>
      have hout := List.getElem?_eq_none_iff.mp hcall
      rw [List.getElem?_eq_none (by omega)]
    | some call =>
      obtain ⟨call', hcall', hmove⟩ := hstep.move hcall
      rw [hcall', Option.map_some, Option.map_some, hmove.request_eq]

namespace Outgoing

variable {ids : List Nat} (ho : Outgoing ids c)
include ho

theorem written_isPrefix : c.written <+: c.queued.flatMap Frame.encode := by
  have hpart : c.written <+: (c.queued.take c.taken).flatMap Frame.encode :=
    ⟨c.unwritten, ho.stream⟩
  have hwhole : (c.queued.take c.taken).flatMap Frame.encode <+: c.queued.flatMap Frame.encode :=
    ⟨(c.queued.drop c.taken).flatMap Frame.encode, by
      rw [← List.flatMap_append, List.take_append_drop]⟩
  exact hpart.trans hwhole

theorem written_eq (hb : c.backlog = []) (hu : c.unwritten = []) :
    c.written = c.queued.flatMap Frame.encode := by
  have hs := ho.stream
  rw [hu, List.append_nil] at hs
  rw [hs, List.take_of_length_le (List.drop_eq_nil_iff.mp hb)]

/-- The daemon reads the queued frames off the whole stream and then finds it at its end. -/
theorem readAll_queued : Frame.readAll (c.queued.flatMap Frame.encode) = (c.queued, .closed) := by
  have hend : Frame.readAll [] = ([], .closed) := Frame.readAll_of_stops (.short (by simp))
  have hread := Frame.readAll_encoded_append ho.short []
  rwa [List.append_nil, hend, List.append_nil] at hread

/-- What the daemon makes of the queued frames are the requests that have queued them. -/
theorem requests_queued :
    c.queued.map (fun f => some (Request.ofFrame f, f.sequence)) =
      ids.map fun id => (c.calls[id]?).map fun call => (.ok call.request, call.sequence) := by
  have hmap := congrArg (List.map (Option.map fun f => (Request.ofFrame f, f.sequence))) ho.frames
  simp only [List.map_map] at hmap
  refine hmap.symm.trans (List.map_congr_left fun id _ => ?_)
  cases hcall : c.calls[id]? with
  | none => simp [frame?, hcall]
  | some call => simp [frame?, hcall, Call.frame]

/-- A request that is too long has not been queued. -/
theorem not_mem_of_long {id : Nat} {call : Call} (hcall : c.calls[id]? = some call)
    (hlong : Frame.maxLength < call.frame.bodyLength) : id ∉ ids := by
  intro hid
  obtain ⟨f, hf, heq⟩ := ho.exists_frame hid
  rw [frame?, hcall, Option.map_some, Option.some.injEq] at heq
  have := ho.short f hf
  rw [← heq] at this
  omega

end Outgoing

/-- However requests begin, wait, are given up or run out of time: no frame is queued twice, the
stream is the beginning of the encoded queue and becomes all of it, the daemon reads the queued
requests off it as they were given and in the order of the queue, and none of them is too long. -/
theorem outgoing_over_run (actions : List Action) (c : Connection)
    (hrun : ({} : Connection).run? actions = some c) :
    (({} : Connection).queuings actions).Nodup ∧
    (({} : Connection).queuings actions).map c.frame? = c.queued.map some ∧
    c.written <+: c.queued.flatMap Frame.encode ∧
    (c.backlog = [] → c.unwritten = [] → c.written = c.queued.flatMap Frame.encode) ∧
    Frame.readAll (c.queued.flatMap Frame.encode) = (c.queued, .closed) ∧
    c.queued.map (fun f => some (Request.ofFrame f, f.sequence)) =
      (({} : Connection).queuings actions).map
        (fun id => (c.calls[id]?).map fun call => (.ok call.request, call.sequence)) ∧
    c.calls.map Call.request = actions.filterMap Action.request? ∧
    ∀ id call, c.calls[id]? = some call → Frame.maxLength < call.frame.bodyLength →
      id ∉ ({} : Connection).queuings actions := by
  have ho : Outgoing (({} : Connection).queuings actions) c := Outgoing.init.run? .init hrun
  have hrequests : c.calls.map Call.request = actions.filterMap Action.request? :=
    Consistent.invariant
      (P := fun past c => c.calls.map Call.request = past.filterMap Action.request?)
      (fun past c a c' _ hpast hstep => by
        rw [hstep.requests_eq, hpast, List.filterMap_append]
        cases ha : a.request? <;> simp [ha])
      [] .init rfl hrun
  exact ⟨ho.nodup, ho.frames, ho.written_isPrefix, ho.written_eq, ho.readAll_queued,
    ho.requests_queued, hrequests, fun _ _ => ho.not_mem_of_long⟩

/-- A run of three requests of which one is given up while its frame is half written, one when its
frame is queued, and one is answered. -/
def interruptedRun : List Action :=
  [.start (.queryState 1) ⟨1000⟩, .list 0, .check 0, .queue 0, .takeFrame, .write 3,
    .start (.command 2 1) ⟨1000⟩, .abandon 0, .list 1, .check 1, .queue 1, .expire 1,
    .start .listNodes ⟨1000⟩, .list 2, .check 2, .queue 2, .write 5, .takeFrame, .write 9,
    .takeFrame, .write 7, .receive ⟨0x08, 3, [0]⟩, .collect 2]

/-- All three frames have gone out whole and in the order of the queue, also those of the two requests
that have ended without a reply. -/
theorem outgoing_over_interruptedRun :
    ∃ c, ({} : Connection).run? interruptedRun = some c ∧
      c.calls.map Call.stage =
        [.finished .abandoned, .finished (.failed (.silent (.reply 2 ⟨1000⟩))),
          .finished (.answered (.nodes []))] ∧
      c.queued = [⟨0x06, 1, [1]⟩, ⟨0x07, 2, [2, 1]⟩, ⟨0x08, 3, []⟩] ∧
      c.written = c.queued.flatMap Frame.encode ∧
      ({} : Connection).queuings interruptedRun = [0, 1, 2] ∧
      (({} : Connection).queuings interruptedRun).Nodup := by
  have hrun : (({} : Connection).run? interruptedRun).any fun c =>
      c.calls.map Call.stage =
        [.finished .abandoned, .finished (.failed (.silent (.reply 2 ⟨1000⟩))),
          .finished (.answered (.nodes []))] &&
      c.queued = [⟨0x06, 1, [1]⟩, ⟨0x07, 2, [2, 1]⟩, ⟨0x08, 3, []⟩] &&
      (c.backlog.isEmpty && c.unwritten.isEmpty) := by
    decide +kernel
  simp only [Option.any_eq_true, Bool.and_eq_true, decide_eq_true_eq, List.isEmpty_iff] at hrun
  obtain ⟨c, hc, ⟨hstages, hqueued⟩, hbacklog, hunwritten⟩ := hrun
  obtain ⟨hnodup, -, -, hwritten, -⟩ := outgoing_over_run interruptedRun c hc
  exact ⟨c, hc, hstages, hqueued, hwritten hbacklog hunwritten, by decide +kernel, hnodup⟩

end Connection

end Canopen
