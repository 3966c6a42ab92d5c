import Canopen.Connection.Sequence
import Canopen.Operation
/-!
# A connection to the daemon

One stream serves all requests. A request takes a number, puts a slot under it, looks whether the
connection is up, queues its frame and waits. A writer puts queued frames on the stream, one whole
frame after another. A receiver hands each reply to the slot of its number and tells events. Either
of the two can cut the connection, in two steps: first it counts as down, then all slots are emptied.

`Connection.step?` gives what an action of any party makes of a connection, where it can happen;
`Connection.run?` follows a list of actions.
-/
namespace Canopen

inductive Inbox where
  | empty
  | reply (r : Reply)
  /-- Nothing will come in any more. -/
  | dropped
  deriving DecidableEq, Repr

inductive Outcome where
  | answered (r : Reply)
  | failed (e : LinkError)
  /-- The request was given up by who made it. -/
  | abandoned
  deriving DecidableEq, Repr

inductive Stage where
  | numbered
  /-- It has put a slot. -/
  | listed
  /-- It has found the connection up. -/
  | admitted
  | waiting
  | finished (outcome : Outcome)
  deriving DecidableEq, Repr

structure Call where
  request : Request
  limit : Duration
  sequence : UInt16
  stage : Stage := .numbered
  inbox : Inbox := .empty
  deriving DecidableEq, Repr

namespace Call

def frame (c : Call) : Frame := c.request.toFrame c.sequence

/-- Holds until the request has ended. -/
def isOpen (c : Call) : Bool :=
  match c.stage with
  | .finished _ => false
  | _ => true

/-- Holds from the time at which the request has put its slot until it has ended. -/
def hasListed (c : Call) : Bool := c.isOpen && c.stage != .numbered

theorem hasListed_iff {c : Call} :
    c.hasListed ↔ c.stage = .listed ∨ c.stage = .admitted ∨ c.stage = .waiting := by
  cases h : c.stage <;> simp [hasListed, isOpen, h]

end Call

/-- Why a request cannot travel in a frame. -/
def Request.sendFault? (r : Request) : Option SendFault :=
  let size := r.payload.length
  if Frame.maxLength < Frame.headerLength + size then some (.tooLong size) else none

/-- A request travels in a frame exactly where this frame is not too long. -/
theorem Request.sendFault?_eq_none_iff {r : Request} {sequence : UInt16} :
    r.sendFault? = none ↔ (r.toFrame sequence).bodyLength ≤ Frame.maxLength := by
  simp [sendFault?, Frame.bodyLength, toFrame]

inductive Party where
  | receiver
  | writer
  deriving DecidableEq, Repr

inductive Condition where
  | running
  /-- It has marked the connection as down and not yet emptied the slots. -/
  | cutting
  | ended
  deriving DecidableEq, Repr

/-- A connection. Requests are known by their place in the order in which they began. -/
structure Connection where
  counter : UInt16 := 1
  connected : Bool := true
  /-- The requests that wait for a reply, by sequence number. -/
  slots : List (UInt16 × Nat) := []
  calls : List Call := []
  queued : List Frame := []
  /-- How many of them the writer has taken. -/
  taken : Nat := 0
  /-- The bytes on the stream. -/
  written : List UInt8 := []
  /-- The bytes of the frame taken last that are not yet on the stream. -/
  unwritten : List UInt8 := []
  told : List Event := []
  receiver : Condition := .running
  writer : Condition := .running
  deriving DecidableEq, Repr

namespace Connection

inductive Action where
  | start (request : Request) (limit : Duration)
  | list (id : Nat)
  | check (id : Nat)
  | queue (id : Nat)
  | collect (id : Nat)
  | expire (id : Nat)
  | abandon (id : Nat)
  | takeFrame
  | write (count : Nat)
  | receive (frame : Frame)
  | cut (party : Party)
  | clear (party : Party)
  deriving DecidableEq, Repr

/-- How many frames wait for the writer at most. -/
def queueLength : Nat := 64

def backlog (c : Connection) : List Frame := c.queued.drop c.taken

def modifyCall (c : Connection) (id : Nat) (f : Call → Call) : Connection :=
  { c with calls := c.calls.modify id f }

@[simp] theorem getElem?_modifyCall (c : Connection) (id j : Nat) (f : Call → Call) :
    (c.modifyCall id f).calls[j]? = if id = j then (c.calls[j]?).map f else c.calls[j]? := by
  rw [modifyCall, List.getElem?_modify]
  split <;> simp

@[simp] theorem length_calls_modifyCall (c : Connection) (id : Nat) (f : Call → Call) :
    (c.modifyCall id f).calls.length = c.calls.length := List.length_modify ..

@[simp] theorem slots_modifyCall (c : Connection) (id : Nat) (f : Call → Call) :
    (c.modifyCall id f).slots = c.slots := rfl

/-- Tells a request that nothing will come in for it, unless something has. -/
def dropInbox (c : Connection) (id : Nat) : Connection :=
  c.modifyCall id fun call => if call.inbox = .empty then { call with inbox := .dropped } else call

/-- Takes the slot of a number away. Whoever has it gets nothing any more. -/
def release (c : Connection) (sequence : UInt16) : Connection :=
  match c.slots.lookup sequence with
  | none => c
  | some owner =>
    { c with slots := c.slots.filter fun slot => slot.1 != sequence }.dropInbox owner

/-- Puts a slot under a number. One that is there is taken away. -/
def putSlot (c : Connection) (sequence : UInt16) (id : Nat) : Connection :=
  let c := c.release sequence
  { c with slots := (sequence, id) :: c.slots }

/-- Ends a request, whose slot is taken away. -/
def finish (c : Connection) (id : Nat) (call : Call) (outcome : Outcome) : Connection :=
  let c := if call.hasListed then c.release call.sequence else c
  c.modifyCall id fun call => { call with stage := .finished outcome }

/-- Begins a request. One that cannot travel in a frame ends at once. -/
def start (c : Connection) (request : Request) (limit : Duration) : Connection :=
  let draw := SequenceDraw.take c.counter
  let stage : Stage :=
    match request.sendFault? with
    | some fault => .finished (.failed (.notSent fault))
    | none => .numbered
  { c with
    counter := draw.counter
    calls := c.calls ++ [{ request, limit, sequence := draw.number, stage }] }

/-- What a reply to a request is worth that does not come in any more. -/
def lossError (c : Connection) (call : Call) : LinkError :=
  if c.connected then .malformed (.badReply call.sequence) else .closed

/-- What becomes of a connection that gets a frame. -/
def receive (c : Connection) (f : Frame) : Connection :=
  if f.isEvent then
    match Event.ofFrame f with
    | .ok e => { c with told := c.told ++ [e] }
    | .error _ => c
  else
    match c.slots.lookup f.sequence with
    | none => c
    | some id =>
      let c := { c with slots := c.slots.filter fun slot => slot.1 != f.sequence }
      match Reply.ofFrame f with
      | .ok r => c.modifyCall id fun call => { call with inbox := .reply r }
      | .error _ => c.dropInbox id

def condition (c : Connection) : Party → Condition
  | .receiver => c.receiver
  | .writer => c.writer

def setCondition (c : Connection) (now : Condition) : Party → Connection
  | .receiver => { c with receiver := now }
  | .writer => { c with writer := now }

@[simp] theorem condition_setCondition (c : Connection) (now : Condition) (party other : Party) :
    (c.setCondition now party).condition other =
      if party = other then now else c.condition other := by
  cases party <;> cases other <;> rfl

@[simp] theorem slots_setCondition (c : Connection) (now : Condition) (party : Party) :
    (c.setCondition now party).slots = c.slots := by cases party <;> rfl

@[simp] theorem calls_setCondition (c : Connection) (now : Condition) (party : Party) :
    (c.setCondition now party).calls = c.calls := by cases party <;> rfl

@[simp] theorem connected_setCondition (c : Connection) (now : Condition) (party : Party) :
    (c.setCondition now party).connected = c.connected := by cases party <;> rfl

def clear (c : Connection) : Connection :=
  { (c.slots.foldl (fun c slot => c.dropInbox slot.2) c) with slots := [] }

/-- What an action on a request makes of a connection, where it can happen. -/
def stepCall? (c : Connection) (id : Nat) (call : Call) : Action → Option Connection
  | .list _ =>
    if call.stage = .numbered then
      some ((c.putSlot call.sequence id).modifyCall id fun call => { call with stage := .listed })
    else none
  | .check _ =>
    if call.stage ≠ .listed then none
    else if c.connected then some (c.modifyCall id fun call => { call with stage := .admitted })
    else some (c.finish id call (.failed .closed))
  | .queue _ =>
    if call.stage ≠ .admitted then none
    else if c.writer = .ended then some (c.finish id call (.failed .closed))
    else if c.backlog.length < queueLength then
      let c := { c with queued := c.queued ++ [call.frame] }
      some (c.modifyCall id fun call => { call with stage := .waiting })
    else none
  | .collect _ =>
    if call.stage ≠ .waiting then none
    else
      match call.inbox with
      | .empty => none
      | .reply r => some (c.finish id call (.answered r))
      | .dropped => some (c.finish id call (.failed (c.lossError call)))
  | .expire _ =>
    let late := LinkError.silent (.reply call.sequence call.limit)
    if call.stage = .admitted || call.stage = .waiting && call.inbox = .empty then
      some (c.finish id call (.failed late))
    else none
  | .abandon _ => if call.isOpen then some (c.finish id call .abandoned) else none
  | _ => none

/-- What an action makes of a connection, where it can happen. -/
def step? (c : Connection) (a : Action) : Option Connection :=
  match a with
  | .start request limit => some (c.start request limit)
  | .list id | .check id | .queue id | .collect id | .expire id | .abandon id =>
    (c.calls[id]?).bind fun call => c.stepCall? id call a
  | .takeFrame =>
    if c.writer = .running && c.unwritten.isEmpty then
      (c.queued[c.taken]?).map fun f => { c with taken := c.taken + 1, unwritten := f.encode }
    else none
  | .write count =>
    if c.writer = .running && 0 < count && count ≤ c.unwritten.length then
      some { c with
        written := c.written ++ c.unwritten.take count
        unwritten := c.unwritten.drop count }
    else none
  | .receive f => if c.receiver = .running then some (c.receive f) else none
  | .cut party =>
    if c.condition party = .running then
      some { c.setCondition .cutting party with connected := false }
    else none
  | .clear party =>
    if c.condition party = .cutting then some (c.clear.setCondition .ended party) else none

/-- What actions in turn make of a connection, if each can happen. -/
def run? (c : Connection) : List Action → Option Connection
  | [] => some c
  | a :: rest => (c.step? a).bind fun c => c.run? rest

/-- The connections that can come about from a new one. -/
def Reachable (c : Connection) : Prop := ∃ actions, ({} : Connection).run? actions = some c

@[simp] theorem run?_nil (c : Connection) : c.run? [] = some c := rfl

@[simp] theorem run?_cons (c : Connection) (a : Action) (rest : List Action) :
    c.run? (a :: rest) = (c.step? a).bind fun c => c.run? rest := rfl

theorem run?_append (c : Connection) (xs ys : List Action) :
    c.run? (xs ++ ys) = (c.run? xs).bind fun c => c.run? ys := by
  induction xs generalizing c with
  | nil => rfl
  | cons a rest ih =>
    simp only [List.cons_append, run?]
    cases c.step? a with
    | none => rfl
    | some c => simp [ih]

end Connection

end Canopen
