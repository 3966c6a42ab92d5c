import Canopen.Proofs.Client.Locality
/-!
# How attempts are put together

Whatever a client does for a node is put together from requests and checks, each of which can end it.
What holds of the parts and is kept by doing one after another holds of all that is done with an entry
(`Composable`), and if it is kept by looking at the state and by noting it too, it holds of every deed
(`Closed.attempt`).
-/
namespace Canopen.Client

variable {α β : Type} {asked : Request → Prop} {P : ∀ α : Type, Attempt α → Prop}

/-- Holds of properties of attempts that are kept by putting these together from some kind of
requests. -/
structure Composable (asked : Request → Prop) (P : ∀ α : Type, Attempt α → Prop) : Prop where
  done : ∀ {α : Type} (r : Except ClientError α), P α (.done r)
  exchange : ∀ {α : Type} {request : Request} {f : Reply → Attempt α}, asked request →
    (∀ q, P α (f q)) → P α (exchange request f)
  andThen : ∀ {α β : Type} {x : Attempt α} {f : α → Attempt β}, P α x → (∀ a, P β (f a)) →
    P β (andThen x f)

/-- Holds of the entries of a node that are read and written by some kind of requests. -/
structure ReachedBy (asked : Request → Prop) (node : UInt8) (e : Entry) : Prop where
  read : asked (.readEntry node e.address)
  write : ∀ data, asked (.writeEntry node e.address data)

namespace Composable

variable (hP : Composable asked P)

include hP

theorem check {r : Except DictionaryError α} {f : α → Attempt β} (hf : ∀ a, P β (f a)) :
    P β (check r f) := by
  cases r with
  | ok a => exact hf a
  | error e => exact hP.done _

theorem acknowledge {request : Request} (h : asked request) : P Unit (acknowledge request) :=
  hP.exchange h fun q => by cases q <;> exact hP.done _

section Entries

variable {node : UInt8} {e : Entry} (he : ReachedBy asked node e)

include he

theorem readRaw : P _ (readRaw node e) := by
  unfold Client.readRaw
  split
  · exact hP.exchange he.read fun q => by cases q <;> exact hP.done _
  · exact hP.done _

theorem read : P _ (read node e) :=
  hP.andThen (hP.readRaw he) fun _ => hP.check fun _ => hP.done _

theorem readField (field : String) : P _ (readField node e field) := by
  refine hP.check fun _ => hP.andThen (hP.readRaw he) fun _ => ?_
  exact hP.check fun _ => hP.done _

theorem writeRaw (data : List UInt8) : P _ (writeRaw node e data) := by
  unfold Client.writeRaw
  split
  · exact hP.acknowledge (he.write data)
  · exact hP.done _

theorem write (v : Value) : P _ (write node e v) := by
  unfold Client.write
  split
  · exact hP.check (hP.writeRaw he)
  · exact hP.done _

theorem writeField (field : String) (input : FieldInput) :
    P _ (writeField node e field input) := by
  unfold Client.writeField
  split
  · exact hP.done _
  · split
    · exact hP.done _
    · refine hP.check fun _ => hP.andThen (hP.readRaw he) fun _ => ?_
      exact hP.check (hP.writeRaw he)

theorem selectFile (name : String) : P _ (selectFile node e name) := by
  unfold Client.selectFile
  split
  · exact hP.writeRaw he _
  · exact hP.done _

end Entries

theorem transfer {cache : List Entry} {node : UInt8} {move : Entry → Attempt α}
    (hmove : ∀ e, P α (move e)) (he : ∀ e, ReachedBy asked node e) (name : String) :
    P α (transfer cache node name move) := by
  unfold Client.transfer
  split
  · exact hP.andThen (hP.selectFile (he _) name) fun _ => hmove _
  · exact hP.done _

theorem receiveFile {node : UInt8} (he : ∀ e, ReachedBy asked node e) (name : String) :
    P _ (receiveFile node name) :=
  hP.transfer (fun e => hP.readRaw (he e)) he name

theorem sendFile {node : UInt8} (he : ∀ e, ReachedBy asked node e) (name : String)
    (data : List UInt8) : P _ (sendFile node name data) :=
  hP.transfer (fun e => hP.writeRaw (he e) data) he name

end Composable

/-- Holds of properties of attempts that are kept by every way of putting these together from some
kind of requests. -/
structure Closed (asked : Request → Prop) (P : ∀ α : Type, Attempt α → Prop) : Prop
    extends Composable asked P where
  look : ∀ {α : Type} {f : NodeState → Attempt α}, (∀ s, P α (f s)) → P α (.look f)
  note : ∀ {α : Type} (s : NodeState) {x : Attempt α}, P α x → P α (.note s x)

namespace Closed

variable (hP : Closed asked P) {node : UInt8}

include hP

theorem state (h : asked (.queryState node)) : P _ (state node) := by
  refine hP.exchange h fun q => ?_
  cases q with
  | state code =>
    dsimp only
    split
    · exact hP.note _ (hP.done _)
    · exact hP.done _
  | _ => exact hP.done _

theorem command {c : NodeCommand} (h : asked (.command node c.code)) : P _ (command node c) := by
  refine hP.look fun observed => ?_
  split
  · exact hP.acknowledge h
  · exact hP.done _

/-- Every attempt at a deed is put together from requests for its node. -/
theorem attempt (h : ∀ r : Request, r.node? = some node → asked r) (d : Deed α) :
    P α (d.attempt node) := by
  have he (e : Entry) : ReachedBy asked node e := ⟨h _ rfl, fun _ => h _ rfl⟩
  cases d with
  | readRaw e => exact hP.readRaw (he e)
  | read e => exact hP.read (he e)
  | readField e field => exact hP.readField (he e) field
  | writeRaw e data => exact hP.writeRaw (he e) data
  | write e v => exact hP.write (he e) v
  | writeField e field input => exact hP.writeField (he e) field input
  | state => exact hP.state (h _ rfl)
  | command c => exact hP.command (h _ rfl)
  | sendEmergency code info => exact hP.acknowledge (h _ rfl)
  | sendPdo number => exact hP.acknowledge (h _ rfl)
  | receiveFile name => exact hP.receiveFile he name
  | sendFile name data => exact hP.sendFile he name data

end Closed

end Canopen.Client
