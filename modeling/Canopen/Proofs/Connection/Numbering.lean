import Canopen.Proofs.Connection.Move
import Mathlib.Data.List.Nodup
/-!
# The numbers of requests

There are 65535 numbers, which requests take in turn. A number that has been taken comes again with
the 65535th request after it and not before (`SequenceDraw.drawn_in_cycle`), and on a connection the
place of a request determines its number (`Connection.Numbered`).
-/
namespace Canopen

namespace SequenceDraw

theorem toNat_number (counter : UInt16) :
    (take counter).number.toNat = 1 + (counter.toNat - 1) := by
  by_cases h : counter = Frame.eventSequence
  · subst h
    rw [take_eventSequence]
    rfl
  · have hne : counter.toNat ≠ 0 := fun h0 => h (UInt16.toNat_inj.mp h0)
    rw [take_of_ne h]
    change counter.toNat = _
    omega

/-- A draw moves the counter to the next of 65535 places, past the number of events. -/
theorem toNat_counter (counter : UInt16) :
    (take counter).counter.toNat - 1 = (counter.toNat - 1 + 1) % 65535 := by
  have hlt := counter.toNat_lt
  have hone : (1 : UInt16).toNat = 1 := rfl
  rw [counter_eq, UInt16.toNat_add, toNat_number, hone]
  omega

theorem toNat_counterAfter (counter : UInt16) (n : Nat) :
    (counterAfter counter n).toNat - 1 = (counter.toNat - 1 + n) % 65535 := by
  induction n with
  | zero =>
    have hlt := counter.toNat_lt
    rw [counterAfter]
    omega
  | succ n ih =>
    rw [counterAfter, toNat_counter, ih]
    omega

theorem toNat_nth (counter : UInt16) (n : Nat) :
    (nth counter n).toNat = 1 + (counter.toNat - 1 + n) % 65535 := by
  rw [nth, toNat_number, toNat_counterAfter]

/-- What it takes to draw a number: the counter is moved on until it has left a place that is not the
number of events. -/
structure Drawn (counter : UInt16) (draw : SequenceDraw) : Prop where
  moves_pos : 0 < draw.moves
  moves_le : draw.moves ≤ 2
  passed : ∀ i, i + 1 < draw.moves → counter + UInt16.ofNat i = Frame.eventSequence
  number_eq : draw.number = counter + UInt16.ofNat (draw.moves - 1)
  number_ne : draw.number ≠ Frame.eventSequence
  counter_eq : draw.counter = counter + UInt16.ofNat draw.moves

theorem drawn_take (counter : UInt16) : Drawn counter (take counter) := by
  by_cases h : counter = Frame.eventSequence
  · subst h
    rw [take_eventSequence]
    refine ⟨by decide, by decide, fun i hi => ?_, by decide, by decide, by decide⟩
    have hfirst : i = 0 := by
      dsimp only at hi
      omega
    subst hfirst
    rfl
  · rw [take_of_ne h]
    refine ⟨by simp, by simp, fun i hi => ?_, ?_, h, rfl⟩
    · dsimp only at hi
      omega
    · exact (UInt16.add_zero counter).symm

/-- Two draws give one number only when they lie a multiple of 65535 draws apart. -/
theorem nth_eq_nth_iff (counter : UInt16) (i j : Nat) :
    nth counter i = nth counter j ↔ i % 65535 = j % 65535 := by
  have hi := toNat_nth counter i
  have hj := toNat_nth counter j
  constructor
  · intro h
    rw [h] at hi
    omega
  · intro h
    apply UInt16.toNat_inj.mp
    omega

theorem nodup_consecutive (counter : UInt16) (first : Nat) :
    ((List.range' first 65535).map (nth counter)).Nodup := by
  apply List.Nodup.map_on
  · intro i hi j hj hsame
    have hmod := (nth_eq_nth_iff counter i j).mp hsame
    rw [List.mem_range'_1] at hi hj
    omega
  · exact List.nodup_range'

/-- From wherever the counter stands, each draw moves it once or twice and gives a number that is not
that of events. A number comes again exactly after every 65535 draws, so that as many draws one after
another give different numbers. -/
theorem drawn_in_cycle (counter : UInt16) :
    (∀ n, Drawn (counterAfter counter n) (take (counterAfter counter n))) ∧
    (∀ n, nth counter n ≠ Frame.eventSequence) ∧
    (∀ j k, j < k → (nth counter j = nth counter k ↔ 65535 ∣ k - j)) ∧
    ∀ first, ((List.range' first 65535).map (nth counter)).Nodup := by
  refine ⟨fun n => ?_, fun n => ?_, fun j k hless => ?_, fun first => ?_⟩
  · exact drawn_take _
  · exact number_ne_eventSequence _
  · rw [nth_eq_nth_iff]
    omega
  · exact nodup_consecutive counter first

end SequenceDraw

namespace Connection

open SequenceDraw

/-- The requests of a connection have their numbers by the order in which they began. -/
structure Numbered (c : Connection) : Prop where
  counter : c.counter = counterAfter 1 c.calls.length
  sequence : ∀ (id : Nat) (call : Call), c.calls[id]? = some call → call.sequence = nth 1 id

theorem Numbered.init : Numbered {} := ⟨rfl, by simp⟩

variable {c c' : Connection} {a : Action}

theorem Numbered.step (hn : c.Numbered) (hstep : c.Step a c') : c'.Numbered := by
  constructor
  · rcases hstep.begins with ⟨request, limit, rfl, rfl⟩ | ⟨-, hcounter, hlen⟩
    · rw [calls_start, List.length_append, List.length_singleton, counterAfter, ← hn.counter]
      rfl
    · rw [hcounter, hlen, hn.counter]
  · intro id call hcall
    rcases hstep.exists_move hcall with ⟨before, hbefore, hmove⟩ | ⟨_, _, -, -, rfl, rfl⟩
    · rw [hmove.sequence_eq, hn.sequence id before hbefore]
    · rw [nth, ← hn.counter]
      rfl

/-- No request has the number of events. -/
theorem Numbered.sequence_ne (hn : c.Numbered) {id : Nat} {call : Call}
    (hcall : c.calls[id]? = some call) : call.sequence ≠ Frame.eventSequence := by
  rw [hn.sequence id call hcall]
  exact number_ne_eventSequence _

theorem Reachable.sequence_ne (h : c.Reachable) {id : Nat} {call : Call}
    (hcall : c.calls[id]? = some call) : call.sequence ≠ Frame.eventSequence := by
  obtain ⟨actions, hrun⟩ := h
  have hn : c.Numbered := Consistent.invariant (P := fun _ c => c.Numbered)
    (fun _ _ _ _ _ hn hstep => hn.step hstep) [] .init .init hrun
  exact hn.sequence_ne hcall

/-- Two requests have one number only when they began a multiple of 65535 requests apart. -/
theorem Numbered.sequence_eq_iff (hn : c.Numbered) {i j : Nat} {a b : Call}
    (ha : c.calls[i]? = some a) (hb : c.calls[j]? = some b) :
    a.sequence = b.sequence ↔ i % 65535 = j % 65535 := by
  rw [hn.sequence i a ha, hn.sequence j b hb, nth_eq_nth_iff]

end Connection

end Canopen
