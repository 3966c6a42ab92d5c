import Canopen.Proofs.Connection.Numbering
import Canopen.Proofs.Connection.Outgoing
/-!
# A connection and the daemon that answers on it

The daemon reads requests off the stream and answers each of them at most once, under its number, in
any order and as late as it likes. Besides answers it sends only events. A dialogue is a connection
with what has been asked on it and what has been answered; it says of each reply frame whose answer
it is, which the connection itself cannot know.
-/
namespace Canopen

def Connection.Action.bringsReply : Connection.Action → Bool
  | .receive f => !f.isEvent
  | _ => false

/-- A connection and what its daemon has been asked and has answered. -/
structure Dialogue where
  connection : Connection := {}
  /-- The requests whose frames have been queued, in order. -/
  asked : List Nat := []
  /-- The answers that have come in, with the requests that they answer. -/
  answers : List (Nat × Frame) := []
  deriving DecidableEq, Repr

namespace Dialogue

inductive Turn where
  | act (a : Connection.Action)
  /-- The answer of the daemon to a request comes in. -/
  | answer (id : Nat) (f : Frame)
  deriving DecidableEq, Repr

/-- The requests that the daemon has read: those whose frames are whole on the stream. -/
def heard (d : Dialogue) : List Nat := d.asked.take (Frame.readAll d.connection.written).1.length

def act? (d : Dialogue) (a : Connection.Action) : Option Dialogue :=
  (d.connection.step? a).map fun c =>
    { d with connection := c, asked := d.asked ++ (d.connection.queues? a).toList }

/-- What a turn makes of a dialogue, where it can happen. A reply comes in as an answer only, and an
answer is to a request that has been heard and not been answered, and has its number. -/
def turn? (d : Dialogue) : Turn → Option Dialogue
  | .act a => if a.bringsReply then none else d.act? a
  | .answer id f =>
    (d.connection.calls[id]?).bind fun call =>
      if id ∈ d.heard ∧ id ∉ d.answers.map Prod.fst ∧ f.isEvent = false ∧
          f.sequence = call.sequence then
        (d.act? (.receive f)).map fun d => { d with answers := d.answers ++ [(id, f)] }
      else none

/-- What turns that are allowed make of a dialogue, if each can happen. -/
def run? (allowed : Dialogue → Turn → Bool) (d : Dialogue) : List Turn → Option Dialogue
  | [] => some d
  | t :: rest => if allowed d t then (d.turn? t).bind fun d => d.run? allowed rest else none

/-- The dialogues that can come about by allowed turns. -/
def ReachableBy (allowed : Dialogue → Turn → Bool) (d : Dialogue) : Prop :=
  ∃ turns, ({} : Dialogue).run? allowed turns = some d

/-- Every request that has ended with a reply has ended with the answer to itself. -/
def Paired (d : Dialogue) : Prop :=
  ∀ id call r, d.connection.calls[id]? = some call → call.stage = .finished (.answered r) →
    ∃ f, (id, f) ∈ d.answers ∧ Reply.ofFrame f = .ok r

/-- Everything that a turn can make of a dialogue. -/
inductive Progress (d : Dialogue) : Turn → Dialogue → Prop where
  | act {a : Connection.Action} {c : Connection} (ha : a.bringsReply = false)
      (hstep : d.connection.Step a c) :
      Progress d (.act a) { d with
        connection := c
        asked := d.asked ++ (d.connection.queues? a).toList }
  | answer {id : Nat} {f : Frame} {call : Call} {c : Connection}
      (hcall : d.connection.calls[id]? = some call) (hheard : id ∈ d.heard)
      (hnew : id ∉ d.answers.map Prod.fst) (hf : f.isEvent = false)
      (hseq : f.sequence = call.sequence) (hstep : d.connection.Step (.receive f) c) :
      Progress d (.answer id f) { d with
        connection := c
        answers := d.answers ++ [(id, f)] }

/-- What holds of every dialogue, whatever is allowed. -/
structure Coherent (d : Dialogue) : Prop where
  consistent : d.connection.Consistent
  numbered : d.connection.Numbered
  outgoing : Connection.Outgoing d.asked d.connection

variable {allowed : Dialogue → Turn → Bool} {d d' : Dialogue}

theorem Coherent.progress_of_turn? (h : d.Coherent) {t : Turn} (ht : d.turn? t = some d') :
    d.Progress t d' := by
  cases t with
  | act a =>
    simp only [turn?] at ht
    split at ht
    · contradiction
    · rename_i ha
      obtain ⟨c, hc, rfl⟩ := Option.map_eq_some_iff.mp ht
      exact .act (by simpa using ha) (h.consistent.step_of_step? hc)
  | answer id f =>
    obtain ⟨call, hcall, ht⟩ := Option.bind_eq_some_iff.mp ht
    split at ht
    · rename_i hs
      obtain ⟨after, hafter, rfl⟩ := Option.map_eq_some_iff.mp ht
      obtain ⟨c, hc, rfl⟩ := Option.map_eq_some_iff.mp hafter
      rw [Connection.queues?_receive, Option.toList_none, List.append_nil]
      exact .answer hcall hs.1 hs.2.1 hs.2.2.1 hs.2.2.2 (h.consistent.step_of_step? hc)
    · contradiction

theorem Coherent.progress {t : Turn} (h : d.Coherent) (hp : d.Progress t d') : d'.Coherent := by
  cases hp with
  | act _ hstep =>
    exact ⟨h.consistent.step hstep, h.numbered.step hstep, h.outgoing.step hstep⟩
  | answer _ _ _ _ _ hstep =>
    have ho := h.outgoing.step hstep
    rw [Connection.queues?_receive, Option.toList_none, List.append_nil] at ho
    exact ⟨h.consistent.step hstep, h.numbered.step hstep, ho⟩

/-- What holds at first and is kept by each allowed turn holds of all dialogues that come about. -/
theorem ReachableBy.invariant {P : Dialogue → Prop} (h0 : P {})
    (hP : ∀ d t d', d.Coherent → allowed d t → P d → d.Progress t d' → P d')
    (h : ReachableBy allowed d) : d.Coherent ∧ P d := by
  obtain ⟨turns, hrun⟩ := h
  have hfirst : Coherent {} ∧ P {} := ⟨⟨.init, .init, .init⟩, h0⟩
  generalize ({} : Dialogue) = first at hrun hfirst
  induction turns generalizing first with
  | nil =>
    cases hrun
    exact hfirst
  | cons t rest ih =>
    simp only [run?] at hrun
    split at hrun
    · obtain ⟨next, hnext, hrest⟩ := Option.bind_eq_some_iff.mp hrun
      have hp := hfirst.1.progress_of_turn? hnext
      exact ih next hrest ⟨hfirst.1.progress hp, hP first t next hfirst.1 ‹_› hfirst.2 hp⟩
    · contradiction

theorem ReachableBy.coherent (h : ReachableBy allowed d) : d.Coherent :=
  (h.invariant (P := fun _ => True) trivial fun _ _ _ _ _ _ _ => trivial).1

theorem ReachableBy.init : ReachableBy allowed {} := ⟨[], rfl⟩

theorem run?_append (d : Dialogue) (xs ys : List Turn) :
    d.run? allowed (xs ++ ys) = (d.run? allowed xs).bind fun d => d.run? allowed ys := by
  induction xs generalizing d with
  | nil => rfl
  | cons t rest ih =>
    simp only [List.cons_append, run?]
    split
    · cases d.turn? t with
      | none => rfl
      | some d => simp [ih]
    · rfl

/-- What comes about by allowed turns comes about where more is allowed. -/
theorem ReachableBy.mono {more : Dialogue → Turn → Bool} (h : ReachableBy allowed d)
    (hmore : ∀ d t, allowed d t → more d t) : ReachableBy more d := by
  obtain ⟨turns, hrun⟩ := h
  refine ⟨turns, ?_⟩
  generalize ({} : Dialogue) = first at hrun ⊢
  induction turns generalizing first with
  | nil => exact hrun
  | cons t rest ih =>
    simp only [run?] at hrun ⊢
    split at hrun
    · rename_i ht
      obtain ⟨next, hnext, hrest⟩ := Option.bind_eq_some_iff.mp hrun
      rw [if_pos (hmore first t ht), hnext, Option.bind_some]
      exact ih next hrest
    · contradiction

theorem ReachableBy.turn {t : Turn} (h : ReachableBy allowed d) (ht : allowed d t)
    (hturn : d.turn? t = some d') : ReachableBy allowed d' := by
  obtain ⟨before, hbefore⟩ := h
  refine ⟨before ++ [t], ?_⟩
  simp [run?_append, hbefore, Dialogue.run?, ht, hturn]

theorem ReachableBy.act {a : Connection.Action} {c : Connection} (h : ReachableBy allowed d)
    (ha : allowed d (.act a)) (hb : a.bringsReply = false)
    (hstep : d.connection.Step a c) :
    ReachableBy allowed { d with
      connection := c
      asked := d.asked ++ (d.connection.queues? a).toList } :=
  h.turn ha (by simp [turn?, hb, act?, h.coherent.consistent.step?_of_step hstep])

theorem ReachableBy.answer {id : Nat} {f : Frame} {call : Call} {c : Connection}
    (h : ReachableBy allowed d) (ha : allowed d (.answer id f))
    (hcall : d.connection.calls[id]? = some call) (hheard : id ∈ d.heard)
    (hnew : id ∉ d.answers.map Prod.fst) (hf : f.isEvent = false)
    (hseq : f.sequence = call.sequence) (hstep : d.connection.Step (.receive f) c) :
    ReachableBy allowed { d with
      connection := c
      answers := d.answers ++ [(id, f)] } := by
  refine h.turn ha ?_
  rw [turn?, hcall, Option.bind_some, if_pos ⟨hheard, hnew, hf, hseq⟩, act?,
    h.coherent.consistent.step?_of_step hstep]
  simp

/-- The frames that the daemon has read are those of the requests that it has heard, in order. -/
theorem Coherent.frames_heard (h : d.Coherent) :
    d.heard.map d.connection.frame? = (Frame.readAll d.connection.written).1.map some := by
  obtain ⟨rest, hrest⟩ := Frame.readAll_of_cut h.outgoing.short h.outgoing.written_isPrefix
  rw [heard, List.map_take, h.outgoing.frames, ← hrest, List.map_append]
  exact List.take_left' (List.length_map ..)

end Dialogue

end Canopen
