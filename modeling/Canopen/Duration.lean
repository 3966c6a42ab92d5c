/-!
# Durations

Spans of time in milliseconds and their text, in the largest of seconds and milliseconds that gives
at least one.
-/
namespace Canopen

structure Duration where
  milliseconds : Nat
  deriving DecidableEq, Repr, Inhabited

namespace Duration

/-- The digits of a fraction of a second, without the zeros at the end. -/
def fractionText (milliseconds : Nat) : String :=
  let digits := (Nat.toDigits 10 milliseconds)
  let padded := List.replicate (3 - digits.length) '0' ++ digits
  let kept := (padded.reverse.dropWhile (· == '0')).reverse
  if kept.isEmpty then "" else String.ofList ('.' :: kept)

def text (d : Duration) : String :=
  if d.milliseconds = 0 then "0ns"
  else if d.milliseconds < 1000 then toString d.milliseconds ++ "ms"
  else toString (d.milliseconds / 1000) ++ fractionText (d.milliseconds % 1000) ++ "s"

end Duration

end Canopen
