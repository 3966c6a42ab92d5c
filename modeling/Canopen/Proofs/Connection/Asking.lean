import Canopen.Proofs.Connection.Move
import Canopen.Proofs.Frame.Stream
/-!
# How a request gets its frame out

On a connection that is up nothing keeps a request from putting its slot, queueing its frame and
having it written; the steps that do it are put together here, with what they leave as it was.
-/
namespace Canopen.Connection

variable {c : Connection}

/-- A connection that is up and has written all that has been queued. -/
structure Ready (c : Connection) : Prop where
  connected : c.connected = true
  receiver : c.receiver = .running
  writer : c.writer = .running
  taken : c.taken = c.queued.length
  unwritten : c.unwritten = []

theorem Ready.backlog_eq (h : c.Ready) : c.backlog = [] := by
  rw [backlog, h.taken, List.drop_length]

/-- What becomes of a connection when a request puts its slot, finds the connection up and queues
its frame. -/
def asking (c : Connection) (id : Nat) (call : Call) : Connection :=
  { c.withSlot call.sequence id with queued := c.queued ++ [call.frame] }.modifyCall id
    fun call => { call with stage := .waiting }

theorem getElem?_asking (c : Connection) {id : Nat} {call : Call} (hcall : c.calls[id]? = some call)
    (hs : call.stage = .numbered) :
    (c.asking id call).calls[id]? = some { call with stage := .waiting } := by
  have hslot : (c.withSlot call.sequence id).calls[id]? = some call := by
    simp [hcall, Call.hear_of_numbered hs]
  simp [asking, hslot]

/-- A request that has not put its slot does not notice that another one asks. -/
theorem getElem?_asking_of_ne (c : Connection) {id j : Nat} {call other : Call} (hne : id ≠ j)
    (hother : c.calls[j]? = some other) (hs : other.stage = .numbered) :
    (c.asking id call).calls[j]? = some other := by
  have hslot : (c.withSlot call.sequence id).calls[j]? = some other := by
    simp [hother, Call.hear_of_numbered hs]
  simp [asking, hne, hslot]

@[simp] theorem length_calls_asking (c : Connection) (id : Nat) (call : Call) :
    (c.asking id call).calls.length = c.calls.length := by
  rw [asking, length_calls_modifyCall, ← length_calls_withSlot c call.sequence id]

/-- A request that has its number can put its slot, find the connection up and queue its frame. -/
theorem exists_asking (hup : c.connected = true) (hw : c.writer = .running)
    (hroom : c.backlog.length < queueLength) {id : Nat} {call : Call}
    (hcall : c.calls[id]? = some call) (hs : call.stage = .numbered) :
    ∃ listed admitted, c.Step (.list id) listed ∧ listed.Step (.check id) admitted ∧
      admitted.Step (.queue id) (c.asking id call) ∧ admitted.writer = .running := by
  let listed := (c.withSlot call.sequence id).modifyCall id
    fun call => { call with stage := .listed }
  let admitted := listed.modifyCall id fun call => { call with stage := .admitted }
  have hlist : c.Step (.list id) listed := .list hcall hs
  have hlisted : listed.calls[id]? = some { call with stage := .listed } := by
    simp [listed, hcall, Call.hear_of_numbered hs]
  have hcheck : listed.Step (.check id) admitted := .check hlisted rfl hup
  have hwriter : admitted.writer = .running := hw
  have hadmitted : admitted.calls[id]? = some { call with stage := .admitted } := by
    simp [admitted, hlisted]
  have hqueue := Step.queue hadmitted rfl (by simp [hwriter]) hroom
  have hasking : c.asking id call =
      { admitted with queued := c.queued ++ [call.frame] }.modifyCall id
        fun call => { call with stage := .waiting } := by
    simp only [admitted, listed, asking, modifyCall, List.modify_modify_eq]
    rfl
  exact ⟨listed, admitted, hlist, hcheck, hasking ▸ hqueue, hwriter⟩

/-- The writer can take a frame and write all of it. -/
theorem exists_taken (hw : c.writer = .running) (hu : c.unwritten = []) {f : Frame}
    (hf : c.queued[c.taken]? = some f) :
    ∃ taken, c.Step .takeFrame taken ∧
      taken.Step (.write f.encode.length) { c with
        taken := c.taken + 1
        written := c.written ++ f.encode
        unwritten := [] } := by
  let taken := { c with taken := c.taken + 1, unwritten := f.encode }
  have hsome : 0 < f.encode.length := by rw [Frame.length_encode]; omega
  have hwrite : taken.Step (.write f.encode.length) { taken with
      written := taken.written ++ f.encode.take f.encode.length
      unwritten := f.encode.drop f.encode.length } := .write hw hsome (Nat.le_refl _)
  rw [List.take_length, List.drop_length] at hwrite
  exact ⟨taken, .takeFrame hw hu hf, hwrite⟩

/-- A request can be given up as soon as it has begun. -/
theorem exists_giveUp (c : Connection) {request : Request} (hfit : request.sendFault? = none)
    (limit : Duration) :
    (c.start request limit).Step (.abandon c.calls.length)
      ((c.start request limit).modifyCall c.calls.length
        fun call => { call with stage := .finished .abandoned }) := by
  have hcall : (c.start request limit).calls[c.calls.length]? =
      some (Call.begin c.counter request limit) := by simp [calls_start]
  have hopen : (Call.begin c.counter request limit).isOpen := by
    simp [Call.isOpen, Call.stage_begin hfit]
  have hstep := Step.finish hcall (.abandoned hopen)
  simpa using hstep

end Canopen.Connection
