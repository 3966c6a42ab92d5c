import Canopen.Entry
import Canopen.Operation
import Canopen.Standard
/-!
# Operations of a client

Reading and writing the entries of a node, observing and commanding its state, and moving files.
What can be checked without the node is checked before the first request.
-/
namespace Canopen.Client

abbrev Attempt (α : Type) := Operation (Except ClientError α)

variable {α β : Type}

def fail (e : ClientError) : Attempt α := .done (.error e)

def succeed (a : α) : Attempt α := .done (.ok a)

/-- An operation and, if it succeeds, another one. -/
def andThen (x : Attempt α) (f : α → Attempt β) : Attempt β :=
  x.bind fun r =>
    match r with
    | .ok a => f a
    | .error e => fail e

/-- A check that belongs to the object dictionary. -/
def check (r : Except DictionaryError α) (f : α → Attempt β) : Attempt β :=
  match r with
  | .ok a => f a
  | .error e => fail (.dictionary e)

/-- A request and what follows on its reply; an error of the link or a refusal ends the
operation. -/
def exchange (request : Request) (f : Reply → Attempt α) : Attempt α :=
  .ask request fun answer =>
    match answer with
    | .error e => fail (.link e)
    | .ok (.refusal why) => fail (.refused why)
    | .ok reply => f reply

/-- A request that is answered by an acknowledgement. -/
def acknowledge (request : Request) : Attempt Unit :=
  exchange request fun reply =>
    match reply with
    | .ack => succeed ()
    | other => fail (.unexpected other)

def readRaw (node : UInt8) (e : Entry) : Attempt (List UInt8) :=
  if e.access.isReadable then
    exchange (.readEntry node e.address) fun reply =>
      match reply with
      | .entry data => succeed data
      | other => fail (.unexpected other)
  else fail (.noAccess e.text e.access .read)

def read (node : UInt8) (e : Entry) : Attempt Value :=
  andThen (readRaw node e) fun data => check (e.decode data) succeed

def readField (node : UInt8) (e : Entry) (field : String) : Attempt FieldValue :=
  check (e.field field) fun _ =>
    andThen (readRaw node e) fun data => check (e.extractField field data) succeed

def writeRaw (node : UInt8) (e : Entry) (data : List UInt8) : Attempt Unit :=
  if e.access.isWritable then acknowledge (.writeEntry node e.address data)
  else fail (.noAccess e.text e.access .write)

def write (node : UInt8) (e : Entry) (v : Value) : Attempt Unit :=
  if e.access.isWritable then check (e.encode v) (writeRaw node e)
  else fail (.noAccess e.text e.access .write)

/-- Writes a bit field of an entry: reads the bytes, sets the bits of the field and writes the bytes
back. -/
def writeField (node : UInt8) (e : Entry) (field : String) (input : FieldInput) : Attempt Unit :=
  if !e.access.isWritable then fail (.noAccess e.text e.access .write)
  else if !e.access.isReadable then fail (.noAccess e.text e.access .read)
  else
    check (e.checkFieldInput field input) fun _ =>
      andThen (readRaw node e) fun current =>
        check (e.packField field current input) (writeRaw node e)

/-- Asks for the state of the node and notes it. -/
def state (node : UInt8) : Attempt NodeState :=
  exchange (.queryState node) fun reply =>
    match reply with
    | .state code =>
      match NodeState.ofCode? code with
      | some s => .note s (succeed s)
      | none => fail (.unknownState code)
    | other => fail (.unexpected other)

/-- Sends a command, if it can be meant for a node in the state last observed. -/
def command (node : UInt8) (c : NodeCommand) : Attempt Unit :=
  .look fun observed =>
    match c.check observed with
    | .ok () => acknowledge (.command node c.code)
    | .error e => fail e

def sendEmergency (node : UInt8) (code : UInt16) (info : UInt32) : Attempt Unit :=
  acknowledge (.sendEmergency node code info)

def sendPdo (node : UInt8) (number : UInt8) : Attempt Unit := acknowledge (.sendPdo node number)

/-- Holds of the names of files in a cache. -/
def isFileName (name : String) : Bool := name != "" && !name.toList.contains '/'

theorem isFileName_iff {name : String} : isFileName name ↔ name ≠ "" ∧ '/' ∉ name.toList := by
  simp [isFileName]

def selectFile (node : UInt8) (nameEntry : Entry) (name : String) : Attempt Unit :=
  if isFileName name then writeRaw node nameEntry (Text.Utf8.encode name)
  else fail (.badFileName name)

/-- Notes an object of a file cache if a file is moved by it. -/
def noteTransferEntry (found : Option Entry × Option Entry) (e : Entry) :
    Option Entry × Option Entry :=
  if e.address.subIndex = Standard.fileNameSubIndex then (some e, found.2)
  else if e.address.subIndex = Standard.fileDataSubIndex then (found.1, some e)
  else found

/-- The objects of a file cache that a file is moved by: the one that selects it and the one with its
data. Of several at one place the last one counts. -/
def transferEntries (cache : List Entry) : Except ClientError (Entry × Entry) :=
  match cache.foldl noteTransferEntry (none, none) with
  | (some nameEntry, some dataEntry) => .ok (nameEntry, dataEntry)
  | _ => .error (.config .incompleteCache)

theorem noteTransferEntry_eq (found : Option Entry × Option Entry) (e : Entry) :
    noteTransferEntry found e =
      (([e].find? fun e => e.address.subIndex = Standard.fileNameSubIndex).or found.1,
        ([e].find? fun e => e.address.subIndex = Standard.fileDataSubIndex).or found.2) := by
  have hother : Standard.fileNameSubIndex ≠ Standard.fileDataSubIndex := by decide
  by_cases hname : e.address.subIndex = Standard.fileNameSubIndex
  · simp [noteTransferEntry, hname, hother]
  · by_cases hdata : e.address.subIndex = Standard.fileDataSubIndex
    · simp [noteTransferEntry, hdata, hother.symm]
    · simp [noteTransferEntry, hname, hdata]

theorem foldl_noteTransferEntry (cache : List Entry) (found : Option Entry × Option Entry) :
    cache.foldl noteTransferEntry found =
      ((cache.reverse.find? fun e => e.address.subIndex = Standard.fileNameSubIndex).or found.1,
        (cache.reverse.find? fun e => e.address.subIndex = Standard.fileDataSubIndex).or found.2) := by
  induction cache generalizing found with
  | nil => rfl
  | cons e rest ih =>
    rw [List.foldl_cons, ih, noteTransferEntry_eq, List.reverse_cons, List.find?_append,
      List.find?_append, Option.or_assoc, Option.or_assoc]

/-- Where one object of a cache stands at each of the two places, a file is moved by these two. -/
theorem transferEntries_eq {cache : List Entry} {nameEntry dataEntry : Entry}
    (hname : nameEntry ∈ cache) (hdata : dataEntry ∈ cache)
    (honly : ∀ e ∈ cache, (e.address.subIndex = Standard.fileNameSubIndex ↔ e = nameEntry) ∧
      (e.address.subIndex = Standard.fileDataSubIndex ↔ e = dataEntry)) :
    transferEntries cache = .ok (nameEntry, dataEntry) := by
  have hfind {place : UInt8} {x : Entry} (hx : x ∈ cache)
      (h : ∀ e ∈ cache, e.address.subIndex = place ↔ e = x) :
      (cache.reverse.find? fun e => e.address.subIndex = place) = some x := by
    cases hfound : cache.reverse.find? fun e => e.address.subIndex = place with
    | none =>
      have hnot := List.find?_eq_none.mp hfound x (List.mem_reverse.mpr hx)
      exact absurd ((h x hx).mpr rfl) (by simpa using hnot)
    | some e =>
      have he := List.mem_reverse.mp (List.mem_of_find?_eq_some hfound)
      rw [(h e he).mp (by simpa using List.find?_some hfound)]
  rw [transferEntries, foldl_noteTransferEntry, hfind hname fun e he => (honly e he).1,
    hfind hdata fun e he => (honly e he).2]
  rfl

/-- Selects a file of a cache and then moves its data. -/
def transfer (cache : List Entry) (node : UInt8) (name : String) (move : Entry → Attempt α) :
    Attempt α :=
  match transferEntries cache with
  | .ok (nameEntry, dataEntry) => andThen (selectFile node nameEntry name) fun _ => move dataEntry
  | .error e => fail e

def receiveFile (node : UInt8) (name : String) : Attempt (List UInt8) :=
  transfer Standard.freadCache node name (readRaw node)

def sendFile (node : UInt8) (name : String) (data : List UInt8) : Attempt Unit :=
  transfer Standard.fwriteCache node name fun dataEntry => writeRaw node dataEntry data

theorem receiveFile_eq (node : UInt8) (name : String) :
    receiveFile node name = andThen (selectFile node Standard.freadFileName name) fun _ =>
      readRaw node Standard.freadFileData := by
  have ⟨hname, hdata⟩ := Standard.mem_freadCache
  rw [receiveFile, transfer, transferEntries_eq hname hdata Standard.transfer_objects.1]

theorem sendFile_eq (node : UInt8) (name : String) (data : List UInt8) :
    sendFile node name data = andThen (selectFile node Standard.fwriteFileName name) fun _ =>
      writeRaw node Standard.fwriteFileData data := by
  have ⟨hname, hdata⟩ := Standard.mem_fwriteCache
  rw [sendFile, transfer, transferEntries_eq hname hdata Standard.transfer_objects.2]

inductive Signal where
  | event (e : Event)
  /-- Events that came too fast and are lost. -/
  | missed (count : Nat)
  | ended
  deriving DecidableEq, Repr

/-- What happens to a client that listens and looks at the connection from time to time. -/
inductive Happening where
  /-- A signal, and how long after the beginning it came. -/
  | signal (s : Signal) (time : Duration)
  /-- A look at the connection. -/
  | check (connected : Bool)
  deriving DecidableEq, Repr

/-- How long it takes from one look at the connection to the next, in milliseconds. -/
def checkPeriod : Nat := 500

/-- What a signal says to a client that waits for a heartbeat of a node. -/
def heard (node : UInt8) : Signal → Option (Except ClientError NodeState)
  | .event (.heartbeat sender code) =>
    if sender = node then (NodeState.ofCode? code).map .ok else none
  | .event _ | .missed _ => none
  | .ended => some (.error (.link .closed))

/-- The outcome of waiting for a heartbeat of a node over the signals that come within the time
limit. -/
def awaitHeartbeat (node : UInt8) (limit : Duration) (signals : List Signal) :
    Except ClientError NodeState :=
  (signals.findSome? (heard node)).getD (.error (.noHeartbeat node limit))

end Canopen.Client
