import Canopen.Frame
/-!
# Sequence numbers

Requests are numbered by a counter of 16 bits that goes round. The number of events is left out.
-/
namespace Canopen

structure SequenceDraw where
  number : UInt16
  counter : UInt16
  /-- How often the counter has moved. -/
  moves : Nat
  deriving DecidableEq, Repr

namespace SequenceDraw

theorem next_ne_eventSequence {counter : UInt16} (h : counter = Frame.eventSequence) :
    counter + 1 ≠ Frame.eventSequence := by subst h; decide

/-- Takes the number that the counter stands at. A counter at the number of events moves on first. -/
def take (counter : UInt16) : SequenceDraw :=
  if counter = Frame.eventSequence then
    let draw := take (counter + 1)
    { draw with moves := draw.moves + 1 }
  else ⟨counter, counter + 1, 1⟩
termination_by if counter = Frame.eventSequence then 1 else 0
decreasing_by simp_all

theorem take_of_ne {counter : UInt16} (h : counter ≠ Frame.eventSequence) :
    take counter = ⟨counter, counter + 1, 1⟩ := by
  rw [take, if_neg h]

theorem take_eventSequence : take Frame.eventSequence = ⟨1, 2, 2⟩ := by
  rw [take, if_pos rfl, take_of_ne (next_ne_eventSequence rfl)]
  rfl

/-- The counter after a number of draws. -/
def counterAfter (counter : UInt16) : Nat → UInt16
  | 0 => counter
  | n + 1 => (take (counterAfter counter n)).counter

/-- The number that comes after some draws. -/
def nth (counter : UInt16) (n : Nat) : UInt16 := (take (counterAfter counter n)).number

theorem number_ne_eventSequence (counter : UInt16) :
    (take counter).number ≠ Frame.eventSequence := by
  by_cases h : counter = Frame.eventSequence
  · rw [h, take_eventSequence]; decide
  · rw [take_of_ne h]; exact h

theorem counter_eq (counter : UInt16) : (take counter).counter = (take counter).number + 1 := by
  by_cases h : counter = Frame.eventSequence
  · rw [h, take_eventSequence]; rfl
  · rw [take_of_ne h]

end SequenceDraw

end Canopen
