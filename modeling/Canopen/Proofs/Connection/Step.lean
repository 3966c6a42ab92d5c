import Canopen.Proofs.Connection.Slots
/-!
# What an action can make of a connection

`Connection.step?` decides whether an action can happen and what it makes of a connection. On a
consistent connection `Step` has one case for each thing that it can make, with what was found
before (`step_of_step?`, `step?_of_step`); all that holds along runs is shown by cases of `Step`.
-/
namespace Canopen.Connection

inductive Ending (c : Connection) (id : Nat) (call : Call) : Action → Outcome → Prop where
  | refused (hs : call.stage = .listed) (hc : c.connected = false) :
      Ending c id call (.check id) (.failed .closed)
  | closed (hs : call.stage = .admitted) (hw : c.writer = .ended) :
      Ending c id call (.queue id) (.failed .closed)
  | answered {r : Reply} (hs : call.stage = .waiting) (hi : call.inbox = .reply r) :
      Ending c id call (.collect id) (.answered r)
  | lost (hs : call.stage = .waiting) (hi : call.inbox = .dropped) :
      Ending c id call (.collect id) (.failed (c.lossError call))
  | expired (hs : call.stage = .admitted ∨ call.stage = .waiting ∧ call.inbox = .empty) :
      Ending c id call (.expire id) (.failed (.silent (.reply call.sequence call.limit)))
  | abandoned (ho : call.isOpen) : Ending c id call (.abandon id) .abandoned

/-- Everything that an action can make of a consistent connection. -/
inductive Step (c : Connection) : Action → Connection → Prop where
  | start (request : Request) (limit : Duration) :
      Step c (.start request limit) (c.start request limit)
  | list {id : Nat} {call : Call} (hcall : c.calls[id]? = some call) (hs : call.stage = .numbered) :
      Step c (.list id)
        ((c.withSlot call.sequence id).modifyCall id fun call => { call with stage := .listed })
  | check {id : Nat} {call : Call} (hcall : c.calls[id]? = some call) (hs : call.stage = .listed)
      (hc : c.connected = true) :
      Step c (.check id) (c.modifyCall id fun call => { call with stage := .admitted })
  | queue {id : Nat} {call : Call} (hcall : c.calls[id]? = some call) (hs : call.stage = .admitted)
      (hw : c.writer ≠ .ended) (hroom : c.backlog.length < queueLength) :
      Step c (.queue id)
        ({ c with queued := c.queued ++ [call.frame] }.modifyCall id
          fun call => { call with stage := .waiting })
  | finish {id : Nat} {call : Call} {a : Action} {outcome : Outcome}
      (hcall : c.calls[id]? = some call) (hend : Ending c id call a outcome) :
      Step c a
        ((c.settle (fun s => call.hasListed && s == call.sequence) .dropped).modifyCall id
          fun call => { call with stage := .finished outcome })
  | takeFrame {f : Frame} (hw : c.writer = .running) (hu : c.unwritten = [])
      (hf : c.queued[c.taken]? = some f) :
      Step c .takeFrame { c with taken := c.taken + 1, unwritten := f.encode }
  | write {count : Nat} (hw : c.writer = .running) (h0 : 0 < count)
      (hc : count ≤ c.unwritten.length) :
      Step c (.write count)
        { c with
          written := c.written ++ c.unwritten.take count
          unwritten := c.unwritten.drop count }
  | tell {f : Frame} {told : List Event} (hr : c.receiver = .running) (hf : f.isEvent = true)
      (htold : c.receive f = { c with told }) : Step c (.receive f) { c with told }
  | hear {f : Frame} (hr : c.receiver = .running) (hf : f.isEvent = false) :
      Step c (.receive f) (c.settle (· == f.sequence) (Inbox.ofFrame f))
  | cut {party : Party} (hp : c.condition party = .running) :
      Step c (.cut party) { c.setCondition .cutting party with connected := false }
  | clear {party : Party} (hp : c.condition party = .cutting) :
      Step c (.clear party) ((c.settle (fun _ => true) .dropped).setCondition .ended party)

theorem exists_told (c : Connection) {f : Frame} (hf : f.isEvent = true) :
    ∃ told, c.receive f = { c with told } := by
  simp only [receive, hf, if_true]
  split
  · exact ⟨_, rfl⟩
  · exact ⟨c.told, rfl⟩

/-- Every action that can happen makes one of the things that `Step` has. -/
theorem Consistent.step_of_step? {c c' : Connection} {a : Action} (hc : c.Consistent)
    (h : c.step? a = some c') : c.Step a c' := by
  cases a with
  | start request limit => cases h; exact .start request limit
  | list id =>
    obtain ⟨call, hcall, h⟩ := Option.bind_eq_some_iff.mp h
    simp only [stepCall?] at h
    split at h
    · cases h
      rw [hc.putSlot_eq]
      exact .list hcall ‹_›
    · contradiction
  | check id =>
    obtain ⟨call, hcall, h⟩ := Option.bind_eq_some_iff.mp h
    simp only [stepCall?] at h
    split at h
    · contradiction
    · rename_i hs
      split at h
      · cases h; exact .check hcall (Classical.not_not.mp hs) ‹_›
      · rename_i hup
        cases h
        rw [hc.finish_eq]
        exact .finish hcall (.refused (Classical.not_not.mp hs) (by simpa using hup))
  | queue id =>
    obtain ⟨call, hcall, h⟩ := Option.bind_eq_some_iff.mp h
    simp only [stepCall?] at h
    split at h
    · contradiction
    · rename_i hs
      split at h
      · cases h; rw [hc.finish_eq]; exact .finish hcall (.closed (Classical.not_not.mp hs) ‹_›)
      · rename_i hw
        split at h
        · cases h; exact .queue hcall (Classical.not_not.mp hs) hw ‹_›
        · contradiction
  | collect id =>
    obtain ⟨call, hcall, h⟩ := Option.bind_eq_some_iff.mp h
    simp only [stepCall?] at h
    split at h
    · contradiction
    · rename_i hs
      split at h
      · contradiction
      · cases h; rw [hc.finish_eq]; exact .finish hcall (.answered (Classical.not_not.mp hs) ‹_›)
      · cases h; rw [hc.finish_eq]; exact .finish hcall (.lost (Classical.not_not.mp hs) ‹_›)
  | expire id =>
    obtain ⟨call, hcall, h⟩ := Option.bind_eq_some_iff.mp h
    simp only [stepCall?] at h
    split at h
    · rename_i hs
      cases h; rw [hc.finish_eq]; exact .finish hcall (.expired (by simpa using hs))
    · contradiction
  | abandon id =>
    obtain ⟨call, hcall, h⟩ := Option.bind_eq_some_iff.mp h
    simp only [stepCall?] at h
    split at h
    · cases h; rw [hc.finish_eq]; exact .finish hcall (.abandoned ‹_›)
    · contradiction
  | takeFrame =>
    simp only [step?] at h
    split at h
    · rename_i hw
      obtain ⟨f, hf, rfl⟩ := Option.map_eq_some_iff.mp h
      simp only [Bool.and_eq_true, decide_eq_true_eq, List.isEmpty_iff] at hw
      exact .takeFrame hw.1 hw.2 hf
    · contradiction
  | write count =>
    simp only [step?] at h
    split at h
    · rename_i hw
      simp only [Bool.and_eq_true, decide_eq_true_eq] at hw
      cases h; exact .write hw.1.1 hw.1.2 hw.2
    · contradiction
  | receive f =>
    simp only [step?] at h
    split at h
    · cases h
      cases hf : f.isEvent with
      | false => rw [hc.receive_eq hf]; exact .hear ‹_› hf
      | true =>
        obtain ⟨told, htold⟩ := c.exists_told hf
        rw [htold]
        exact .tell ‹_› hf htold
    · contradiction
  | cut party =>
    simp only [step?] at h
    split at h
    · cases h; exact .cut ‹_›
    · contradiction
  | clear party =>
    simp only [step?] at h
    split at h
    · cases h; rw [hc.clear_eq]; exact .clear ‹_›
    · contradiction

/-- All that `Step` has can happen. -/
theorem Consistent.step?_of_step {c c' : Connection} {a : Action} (hc : c.Consistent)
    (h : c.Step a c') : c.step? a = some c' := by
  cases h with
  | start => rfl
  | list hcall hs => simp [step?, stepCall?, hcall, hs, hc.putSlot_eq]
  | check hcall hs hup => simp [step?, stepCall?, hcall, hs, hup]
  | queue hcall hs hw hroom => simp [step?, stepCall?, hcall, hs, hw, hroom]
  | finish hcall hend =>
    rw [← hc.finish_eq]
    cases hend with
    | refused hs hdown => simp [step?, stepCall?, hcall, hs, hdown]
    | closed hs hw => simp [step?, stepCall?, hcall, hs, hw]
    | answered hs hi | lost hs hi => simp [step?, stepCall?, hcall, hs, hi]
    | expired hs => rcases hs with hs | ⟨hs, hi⟩ <;> simp [step?, stepCall?, *]
    | abandoned ho => simp [step?, stepCall?, hcall, ho]
  | takeFrame hw hu hf => simp [step?, hw, hu, hf]
  | write hw h0 hlen => simp [step?, hw, h0, hlen]
  | tell hr _ htold => simp [step?, hr, htold]
  | hear hr hf => simp [step?, hr, hc.receive_eq hf]
  | cut hp => simp [step?, hp]
  | clear hp => simp [step?, hp, hc.clear_eq]

end Canopen.Connection
