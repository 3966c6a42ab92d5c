import Canopen.Client
import Canopen.Cli.Output
/-!
# Monitoring

Printing the daemon's events as they come, until the daemon is gone.
-/
namespace Canopen.Cli

open Canopen.Text
open Canopen.Client (Happening)

/-- A time in seconds with three places. -/
def timeText (d : Duration) : String :=
  let places := Nat.toDigits 10 (d.milliseconds % 1000)
  toString (d.milliseconds / 1000) ++ "." ++
    String.ofList (List.replicate (3 - places.length) '0' ++ places) ++ "s"

def EventRow.ofEvent (e : Event) (time : Duration) : EventRow :=
  let row (node kind detail : String) : EventRow := ⟨timeText time, node, kind, detail⟩
  match e with
  | .heartbeat node code =>
    row (nodeLabel node) "heartbeat"
      (match NodeState.ofCode? code with
      | some s => s.text
      | none => "unknown state 0x" ++ Hex.padded 2 code.toNat)
  | .emergency node code info =>
    row (nodeLabel node) "emcy"
      ("code 0x" ++ Hex.padded 4 code.toNat ++ " info 0x" ++ Hex.padded 8 info.toNat)
  | .busStatus flags => row "-" "bus" ("status 0x" ++ Hex.padded 2 flags.toNat)

def EventRow.line (r : EventRow) : String := s!"[{r.time}] {r.node} {r.kind}: {r.detail}"

/-- Holds of the events to be shown: all, or those of one node. -/
def isShown (node : Option UInt8) (e : Event) : Bool := node.isNone || e.node? = node

/-- Prints what happens until the end. -/
def follow (style : Style) (node : Option UInt8) : List Happening → Transcript → Transcript
  | [], t => t
  | .check true :: rest, t => follow style node rest t
  | .check false :: _, t => t.warn "Daemon closed the connection"
  | .signal .ended _ :: _, t => t
  | .signal (.missed count) _ :: rest, t =>
    follow style node rest (t.warn s!"Skipped {count} event(s)")
  | .signal (.event e) time :: rest, t =>
    if isShown node e then
      let r := EventRow.ofEvent e time
      follow style node rest (t.row style r r.line)
    else follow style node rest t

/-- Prints what happens, after a line that tells how to end it. -/
def monitor (style : Style) (node : Option UInt8) (happenings : List Happening) (t : Transcript) :
    Transcript :=
  follow style node happenings (t.message style "Monitoring daemon events, press Ctrl+C to stop")

end Canopen.Cli
