import Canopen.Cli.Argument
import Canopen.Cli.Monitor
import Canopen.DictionaryError
import Canopen.Network
/-!
# Commands

What the commands do with a session, the daemon, files and the two outputs.
-/
namespace Canopen.Cli

open Canopen.Text

inductive Command where
  | nodes
  | entries (index : Option String)
  | read (node : UInt8) (identifiers : List String) (field type : Option String)
  | write (node : UInt8) (identifier value : String) (field type : Option String)
  | readAll (identifier : String) (field type : Option String)
  | state (target : Target)
  | command (target : Target) (name : String)
  | emergency (node : UInt8) (code info : String)
  | sendPdo (node : UInt8) (number : UInt8)
  | receive (node : UInt8) (name : String) (path : Option String)
  | send (node : UInt8) (path : String) (name : Option String)
  | monitor (node : Option UInt8)
  deriving DecidableEq, Repr

/-- How commands reach what is outside: the daemon by operations and by listening, and files by
their paths. -/
structure Outside (σ : Type) where
  channel : Channel σ
  listen : σ → List Client.Happening × σ
  readFile : String → σ → Except FileFault (List UInt8) × σ
  writeFile : String → List UInt8 → σ → Except FileFault Unit × σ

structure Console (σ : Type) where
  session : Session
  world : σ
  transcript : Transcript := {}

abbrev Step (σ α : Type) := Console σ → Except Failure α × Console σ

namespace Step

variable {σ α β : Type}

def done (a : α) : Step σ α := fun c => (.ok a, c)

def fail (f : Failure) : Step σ α := fun c => (.error f, c)

/-- A step and, if it succeeds, another one. -/
def andThen (x : Step σ α) (f : α → Step σ β) : Step σ β := fun c =>
  match x c with
  | (.ok a, c) => f a c
  | (.error e, c) => (.error e, c)

instance : Monad (Step σ) where
  pure := done
  bind := andThen

theorem bind_of_ok {x : Step σ α} {c c' : Console σ} {a : α} (h : x c = (.ok a, c'))
    (f : α → Step σ β) : (x >>= f) c = f a c' := by
  simp only [bind, andThen, h]

theorem bind_of_error {x : Step σ α} {c c' : Console σ} {e : Failure} (h : x c = (.error e, c'))
    (f : α → Step σ β) : (x >>= f) c = (.error e, c') := by
  simp only [bind, andThen, h]

/-- A step that cannot change anything. -/
def check (r : Except Failure α) : Step σ α := fun c => (r, c)

theorem check_of_ok {r : Except Failure α} {a : α} (h : r = .ok a) (c : Console σ) :
    check r c = (.ok a, c) := congrArg (·, c) h

theorem check_of_error {r : Except Failure α} {f : Failure} (h : r = .error f) (c : Console σ) :
    check r c = (.error f, c) := congrArg (·, c) h

def print (f : Transcript → Transcript) : Step σ Unit := fun c =>
  (.ok (), { c with transcript := f c.transcript })

def register (node : UInt8) : Step σ Handle := fun c =>
  let (h, session) := c.session.register node
  (.ok h, { c with session })

theorem register_eq (node : UInt8) (c : Console σ) :
    register node c = (.ok (c.session.register node).1, { c with session := (c.session.register node).2 }) :=
  rfl

/-- Carries out an operation; its outcome is the result of the step. -/
def attempt (ch : Channel σ) (h : Handle) (op : UInt8 → Client.Attempt α) :
    Step σ (Except ClientError α) := fun c =>
  let (r, session, world) := c.session.perform ch h op c.world
  (.ok r, { c with session, world })

theorem attempt_eq (ch : Channel σ) (h : Handle) (op : UInt8 → Client.Attempt α) (c : Console σ) :
    attempt ch h op c =
      let (r, session, world) := c.session.perform ch h op c.world
      (.ok r, { c with session, world }) := rfl

/-- Carries out an operation; an error fails the step. -/
def perform (ch : Channel σ) (h : Handle) (op : UInt8 → Client.Attempt α) : Step σ α :=
  andThen (attempt ch h op) fun r => check (ofClient r)

theorem perform_eq (ch : Channel σ) (h : Handle) (op : UInt8 → Client.Attempt α) (c : Console σ) :
    perform ch h op c =
      let (r, session, world) := c.session.perform ch h op c.world
      (ofClient r, { c with session, world }) := rfl

def performAll (ch : Channel σ) (op : UInt8 → Client.Attempt α) :
    Step σ (List (UInt8 × Except ClientError α)) := fun c =>
  let (r, session, world) := c.session.performAll ch op c.world
  (.ok r, { c with session, world })

/-- Refreshes the registry. -/
def listNodes (ch : Channel σ) : Step σ (List UInt8) := fun c =>
  let (r, session, world) := c.session.listNodes ch c.world
  (ofClient r, { c with session, world })

def onFile (f : σ → Except FileFault α × σ) : Step σ α := fun c =>
  let (r, world) := f c.world
  (r.mapError .file, { c with world })

def during (activity : Activity) (x : Step σ α) : Step σ α := fun c =>
  let (r, c) := x c
  (within activity r, c)

end Step

open Step

variable {σ : Type}

def outcomeText {α : Type} (text : α → String) : Except ClientError α → String
  | .ok a => text a
  | .error e => "Error: " ++ e.message

def stateRows (states : List (UInt8 × Except ClientError NodeState)) : List NodeRow :=
  states.map fun (node, r) => ⟨nodeLabel node, outcomeText NodeState.text r⟩

def nodes (ch : Channel σ) (style : Style) : Step σ Unit := do
  let _ ← listNodes ch
  let states ← Step.performAll ch Client.state
  print fun t => t.rows style (stateRows states)

def EntryRow.ofEntry (e : Entry) : EntryRow :=
  ⟨e.address.text, e.name, e.type.text, e.access.text,
    String.intercalate " " (e.fields.map (·.name))⟩

/-- The entries of an index, or all. -/
def selectEntries (catalog : Catalog) (index : Option String) : Except Failure (List Entry) :=
  match index with
  | none => .ok catalog.entries
  | some text => do
    let n ← ofDictionary (parseNumber text)
    if n < 2 ^ 16 then return catalog.subEntries (UInt16.ofNat n) else throw (.indexOutOfRange text)

def entries (catalog : Catalog) (style : Style) (index : Option String) (t : Transcript) :
    Except Failure Unit × Transcript :=
  match selectEntries catalog index with
  | .ok es => (.ok (), t.rows style (es.map EntryRow.ofEntry))
  | .error f => (.error f, t)

/-- Reads an entry or one of its bit fields; gives the text of the value and that of the bytes. -/
def readOne (e : Entry) (field : Option String) (node : UInt8) :
    Client.Attempt (String × String) :=
  Client.andThen (Client.readRaw node e) fun raw =>
    match field with
    | some name =>
      Client.check (e.extractField name raw) fun v => Client.succeed (v.text, Hex.encode raw)
    | none => Client.check (e.decode raw) fun v => Client.succeed (v.text, Hex.encode raw)

def ValueRow.ofOutcome (e : Entry) (r : Except ClientError (String × String)) : ValueRow :=
  match r with
  | .ok (value, raw) => ⟨e.name, e.address.text, value, raw⟩
  | .error err => ⟨e.name, e.address.text, "Error: " ++ err.message, ""⟩

/-- Reads entries one after another. An entry that fails is told in its row; an identifier that
names no entry ends the command. -/
def readRows (ch : Channel σ) (catalog : Catalog) (h : Handle) (field type : Option String) :
    List String → Step σ (List ValueRow)
  | [] => done []
  | identifier :: rest => do
    let e ← check (resolveEntry catalog identifier type)
    let r ← attempt ch h (readOne e field)
    let rows ← readRows ch catalog h field type rest
    return ValueRow.ofOutcome e r :: rows

def read (ch : Channel σ) (catalog : Catalog) (style : Style) (node : UInt8)
    (identifiers : List String) (field type : Option String) : Step σ Unit := do
  let h ← register node
  let rows ← readRows ch catalog h field type identifiers
  print fun t => t.rows style rows

/-- Writes an entry or one of its bit fields. -/
def write (ch : Channel σ) (catalog : Catalog) (style : Style) (node : UInt8)
    (identifier value : String) (field type : Option String) : Step σ Unit := do
  let h ← register node
  let e ← check (resolveEntry catalog identifier type)
  match field with
  | some name =>
    during (.writingField e.name name)
      (perform ch h fun node => Client.writeField node e name (readFieldInput value))
    print fun t => t.message style s!"Successfully wrote {e.name}.{name} = {value}"
  | none =>
    let v ← check (readValue e.type value)
    during (.writingEntry e.text) (perform ch h fun node => Client.write node e v)
    print fun t => t.message style s!"Successfully wrote {e.name} = {v.text}"

def valueRows {α : Type} (text : α → String) (values : List (UInt8 × Except ClientError α)) :
    List NodeValueRow :=
  values.map fun (node, r) => ⟨nodeLabel node, outcomeText text r⟩

def readAll (ch : Channel σ) (catalog : Catalog) (style : Style) (identifier : String)
    (field type : Option String) : Step σ Unit := do
  let e ← check (resolveEntry catalog identifier type)
  let _ ← listNodes ch
  let rows ←
    match field with
    | some name => do
      let values ← Step.performAll ch fun node => Client.readField node e name
      pure (valueRows FieldValue.text values)
    | none => do
      let values ← Step.performAll ch fun node => Client.read node e
      pure (valueRows Value.text values)
  print fun t => t.rows style rows

def state (ch : Channel σ) (style : Style) : Target → Step σ Unit
  | .node node => do
    let h ← register node
    let s ← perform ch h Client.state
    print fun t => t.rows style (stateRows [(node, .ok s)])
  | .all => nodes ch style

/-- Sends a command to a node or to all nodes. The state is asked for first, so that the guard of the
command is about the present. -/
def command (ch : Channel σ) (style : Style) (c : NodeCommand) : Target → Step σ Unit
  | .node node => do
    let h ← register node
    let _ ← during (.querying (nodeLabel node)) (perform ch h Client.state)
    during (.commanding c.text (nodeLabel node))
      (perform ch h fun node => Client.command node c)
    print fun t => t.message style s!"Sent {c.text} to node {nodeLabel node}"
  | .all => do
    let _ ← listNodes ch
    let _ ← Step.performAll ch Client.state
    let results ← Step.performAll ch fun node => Client.command node c
    let failed := (results.filter fun r => r.2.toOption.isNone).length
    print fun t =>
      let t := t.rows style (results.map fun (node, r) =>
        (⟨nodeLabel node, outcomeText (fun _ => "ok") r⟩ : NodeResultRow))
      if 0 < failed then t.warn s!"{failed} node(s) did not accept {c.text}" else t

def emergency (ch : Channel σ) (style : Style) (node : UInt8) (code info : String) :
    Step σ Unit := do
  let h ← register node
  let code ← check (readArgument (2 ^ 16) "emergency code" code)
  let info ← check (readArgument (2 ^ 32) "emergency info" info)
  during .sendingEmergency
    (perform ch h fun node => Client.sendEmergency node (UInt16.ofNat code) (UInt32.ofNat info))
  print fun t => t.message style s!"Sent EMCY 0x{Hex.padded 4 code} from node {nodeLabel node}"

def sendPdo (ch : Channel σ) (style : Style) (node : UInt8) (number : UInt8) : Step σ Unit := do
  let h ← register node
  during (.sendingPdo number.toNat) (perform ch h fun node => Client.sendPdo node number)
  print fun t => t.message style s!"Sent TPDO {number.toNat} of node {nodeLabel node}"

/-- Receives a file from a node, into a file or to the output. -/
def receive (o : Outside σ) (style : Style) (node : UInt8) (name : String)
    (path : Option String) : Step σ Unit := do
  let h ← register node
  let data ← during (.receiving name) (perform o.channel h fun node => Client.receiveFile node name)
  match path with
  | some path =>
    during (.writingFile path) (onFile (o.writeFile path data))
    let size := data.length
    print fun t =>
      t.message style s!"Read {size} bytes of '{name}' from node {nodeLabel node} into {path}"
  | none => print fun t => t.write data

/-- The last name of a path, if it names a file. -/
def fileName? (path : String) : Option String :=
  match (path.splitOn "/").filter fun name => name != "" && name != "." with
  | [] => none
  | name :: rest =>
    let last := rest.getLastD name
    if last = ".." then none else some last

/-- Sends a file to a node, by default under its own name. -/
def send (o : Outside σ) (style : Style) (node : UInt8) (path : String) (name : Option String) :
    Step σ Unit := do
  let h ← register node
  let name ←
    match name <|> fileName? path with
    | some name => done name
    | none => Step.fail (.noFileName path)
  let data ← during (.readingFile path) (onFile (o.readFile path))
  during (.sending name) (perform o.channel h fun node => Client.sendFile node name data)
  let size := data.length
  print fun t => t.message style s!"Wrote {size} bytes as '{name}' to node {nodeLabel node}"

def listen (o : Outside σ) (style : Style) (node : Option UInt8) : Step σ Unit :=
  fun c =>
    let (happenings, world) := o.listen c.world
    (.ok (), { c with world, transcript := monitor style node happenings c.transcript })

def Command.run (o : Outside σ) (catalog : Catalog) (style : Style) : Command → Step σ Unit
  | .nodes => Cli.nodes o.channel style
  | .entries index => fun c =>
    let (r, transcript) := Cli.entries catalog style index c.transcript
    (r, { c with transcript })
  | .read node identifiers field type =>
    Cli.read o.channel catalog style node identifiers field type
  | .write node identifier value field type =>
    Cli.write o.channel catalog style node identifier value field type
  | .readAll identifier field type => Cli.readAll o.channel catalog style identifier field type
  | .state target => Cli.state o.channel style target
  | .command target name => do
    let c ← during (.readingCommand name) (check (ofClient (NodeCommand.parse name)))
    Cli.command o.channel style c target
  | .emergency node code info => Cli.emergency o.channel style node code info
  | .sendPdo node number => Cli.sendPdo o.channel style node number
  | .receive node name path => Cli.receive o style node name path
  | .send node path name => Cli.send o style node path name
  | .monitor node => Cli.listen o style node

end Canopen.Cli
