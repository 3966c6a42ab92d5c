import Canopen.Client
import Canopen.Proofs.Entry.Errors
import Canopen.Proofs.Operation.Outcome
/-!
# Local errors are those of operations that ask nothing

What can go wrong without the node is looked at before the first request; behind it only the link, the
daemon and the bytes of a reply can fail an operation. So a local error says that nothing has been
handed to the link, and any other outcome says that something has, whatever the link answers
(`isLocal_iff_nothing_asked`). Operations of which this holds are called punctual here.
-/
namespace Canopen

namespace Client

variable {α β σ : Type}

/-- Holds of the outcomes that are local errors. -/
def IsLocal : Except ClientError α → Prop
  | .ok _ => False
  | .error e => e.isLocal

/-- Holds of attempts that end in a local error where they have asked nothing, and in something else
where they have. -/
def Punctual (x : Attempt α) : Prop := x.Splits IsLocal fun r => ¬IsLocal r

/-- Holds of attempts that never end in a local error. -/
def Unlocal (x : Attempt α) : Prop := x.Yields fun r => ¬IsLocal r

theorem Punctual.andThen {x : Attempt α} {f : α → Attempt β} (hx : Punctual x)
    (hf : ∀ a, Unlocal (f a)) : Punctual (andThen x f) := by
  refine Operation.Splits.bind hx (fun r hr => ?_) fun r hr => ?_
  · cases r with
    | ok a => exact hr.elim
    | error e => exact hr
  · cases r with
    | ok a => exact hf a
    | error e => exact hr

theorem punctual_check {r : Except DictionaryError α} {f : α → Attempt β}
    (he : ∀ e, r = .error e → (ClientError.dictionary e).isLocal)
    (hf : ∀ a, r = .ok a → Punctual (f a)) : Punctual (check r f) := by
  cases r with
  | ok a => exact hf a rfl
  | error e => exact he e rfl

theorem unlocal_check {t : DataType} {r : Except DictionaryError α} {f : α → Attempt β}
    (he : ∀ e, r = .error e → ∃ reason, e = .malformed t reason)
    (hf : ∀ a, Unlocal (f a)) : Unlocal (check r f) := by
  cases r with
  | ok a => exact hf a
  | error e =>
    obtain ⟨reason, rfl⟩ := he e rfl
    exact Bool.false_ne_true

theorem unlocal_exchange {request : Request} {f : Reply → Attempt α} (hf : ∀ q, Unlocal (f q)) :
    Unlocal (exchange request f) := by
  intro answer
  cases answer with
  | error e => simp [fail, Operation.Yields, IsLocal]
  | ok q =>
    cases q with
    | refusal why => simp [fail, Operation.Yields, IsLocal]
    | _ => exact hf _

/-- Who asks first has not ended before. -/
theorem punctual_exchange {request : Request} {f : Reply → Attempt α} (hf : ∀ q, Unlocal (f q)) :
    Punctual (exchange request f) := @unlocal_exchange α request f hf

theorem unlocal_succeed (a : α) : Unlocal (succeed a) := id

theorem unlocal_unexpected (q : Reply) : Unlocal (fail (.unexpected q) : Attempt α) :=
  Bool.false_ne_true

theorem unlocal_acknowledge (request : Request) : Unlocal (acknowledge request) :=
  unlocal_exchange fun q => by
    cases q with
    | ack => exact unlocal_succeed ()
    | _ => exact unlocal_unexpected _

theorem punctual_acknowledge (request : Request) : Punctual (acknowledge request) :=
  unlocal_acknowledge request

section Entries

variable (node : UInt8) (e : Entry)

theorem unlocal_readRaw (h : e.access.isReadable) : Unlocal (readRaw node e) := by
  rw [readRaw, if_pos h]
  refine unlocal_exchange fun q => ?_
  cases q with
  | entry data => exact unlocal_succeed data
  | _ => exact unlocal_unexpected _

theorem punctual_readRaw : Punctual (readRaw node e) := by
  by_cases h : e.access.isReadable
  · have hx := unlocal_readRaw node e h
    rw [readRaw, if_pos h] at hx ⊢
    exact hx
  · rw [readRaw, if_neg h]
    rfl

theorem punctual_read : Punctual (read node e) :=
  (punctual_readRaw node e).andThen fun _ =>
    unlocal_check (fun _ h => DataType.exists_malformed_of_decode h) unlocal_succeed

theorem punctual_readField (field : String) : Punctual (readField node e field) := by
  refine punctual_check (fun _ h => Entry.isLocal_of_field h) fun f hf => ?_
  refine (punctual_readRaw node e).andThen fun data => ?_
  exact unlocal_check (fun _ h => Entry.exists_malformed_of_extractField hf h) unlocal_succeed

theorem unlocal_writeRaw (h : e.access.isWritable) (data : List UInt8) :
    Unlocal (writeRaw node e data) := by
  rw [writeRaw, if_pos h]
  exact unlocal_acknowledge _

theorem punctual_writeRaw (data : List UInt8) : Punctual (writeRaw node e data) := by
  by_cases h : e.access.isWritable
  · rw [writeRaw, if_pos h]
    exact punctual_acknowledge _
  · rw [writeRaw, if_neg h]
    rfl

theorem punctual_write (v : Value) : Punctual (write node e v) := by
  by_cases h : e.access.isWritable
  · rw [write, if_pos h]
    exact punctual_check (fun _ hv => DataType.isLocal_of_encode hv) fun data _ =>
      punctual_writeRaw node e data
  · rw [write, if_neg h]
    rfl

theorem punctual_writeField (field : String) (input : FieldInput) :
    Punctual (writeField node e field input) := by
  unfold writeField
  split
  · rfl
  · rename_i hwritable
    split
    · rfl
    · refine punctual_check (fun _ h => Entry.isLocal_of_checkFieldInput h) fun _ hcheck => ?_
      refine (punctual_readRaw node e).andThen fun current => ?_
      -- the input has been checked, so packing can only stumble over the bytes
      refine unlocal_check (fun _ h => Entry.exists_malformed_of_packField hcheck h) fun packed => ?_
      exact unlocal_writeRaw node e (by simpa using hwritable) packed

end Entries

section Nodes

variable (node : UInt8)

theorem punctual_state : Punctual (state node) := by
  refine punctual_exchange fun q => ?_
  cases q with
  | state code =>
    dsimp only
    split
    · exact unlocal_succeed _
    · exact Bool.false_ne_true
  | _ => exact unlocal_unexpected _

theorem punctual_command (c : NodeCommand) : Punctual (command node c) := by
  intro observed
  dsimp only
  split
  · exact punctual_acknowledge _
  · rename_i why h
    unfold NodeCommand.check at h
    split at h <;> cases h
    rfl

theorem punctual_selectFile (nameEntry : Entry) (name : String) :
    Punctual (selectFile node nameEntry name) := by
  unfold selectFile
  split
  · exact punctual_writeRaw node nameEntry _
  · rfl

theorem punctual_receiveFile (name : String) : Punctual (receiveFile node name) := by
  rw [receiveFile_eq]
  exact (punctual_selectFile node _ name).andThen fun _ => unlocal_readRaw node _ rfl

theorem punctual_sendFile (name : String) (data : List UInt8) :
    Punctual (sendFile node name data) := by
  rw [sendFile_eq]
  exact (punctual_selectFile node _ name).andThen fun _ => unlocal_writeRaw node _ rfl data

end Nodes

inductive Deed : Type → Type where
  | readRaw (e : Entry) : Deed (List UInt8)
  | read (e : Entry) : Deed Value
  | readField (e : Entry) (field : String) : Deed FieldValue
  | writeRaw (e : Entry) (data : List UInt8) : Deed Unit
  | write (e : Entry) (v : Value) : Deed Unit
  | writeField (e : Entry) (field : String) (input : FieldInput) : Deed Unit
  | state : Deed NodeState
  | command (c : NodeCommand) : Deed Unit
  | sendEmergency (code : UInt16) (info : UInt32) : Deed Unit
  | sendPdo (number : UInt8) : Deed Unit
  | receiveFile (name : String) : Deed (List UInt8)
  | sendFile (name : String) (data : List UInt8) : Deed Unit

def Deed.attempt (node : UInt8) : Deed α → Attempt α
  | readRaw e => Client.readRaw node e
  | read e => Client.read node e
  | readField e field => Client.readField node e field
  | writeRaw e data => Client.writeRaw node e data
  | write e v => Client.write node e v
  | writeField e field input => Client.writeField node e field input
  | state => Client.state node
  | command c => Client.command node c
  | sendEmergency code info => Client.sendEmergency node code info
  | sendPdo number => Client.sendPdo node number
  | receiveFile name => Client.receiveFile node name
  | sendFile name data => Client.sendFile node name data

theorem Deed.punctual (node : UInt8) (d : Deed α) : Punctual (d.attempt node) := by
  cases d with
  | readRaw e => exact punctual_readRaw node e
  | read e => exact punctual_read node e
  | readField e field => exact punctual_readField node e field
  | writeRaw e data => exact punctual_writeRaw node e data
  | write e v => exact punctual_write node e v
  | writeField e field input => exact punctual_writeField node e field input
  | state => exact punctual_state node
  | command c => exact punctual_command node c
  | sendEmergency code info => exact punctual_acknowledge _
  | sendPdo number => exact punctual_acknowledge _
  | receiveFile name => exact punctual_receiveFile node name
  | sendFile name data => exact punctual_sendFile node name data

/-- Whatever a client does for a node, and whatever the link answers to its requests, it fails with a
local error exactly where it has handed no request to the link. So every success and every error that
is not local comes behind a request. -/
theorem isLocal_iff_nothing_asked (d : Deed α) (node : UInt8) (link : Link σ) (limit : Duration)
    (observed : NodeState) (s : σ) :
    let (r, _, _, asked) := (d.attempt node).run (Link.recorded link) limit observed (s, [])
    ((∃ e, r = .error e ∧ e.isLocal) ↔ asked = []) ∧
      (∀ a, r = .ok a → asked ≠ []) ∧ ∀ e, r = .error e → ¬e.isLocal → asked ≠ [] := by
  have hsplit := (d.punctual node).recorded link limit observed s
  generalize (d.attempt node).run (Link.recorded link) limit observed (s, []) = outcome at hsplit ⊢
  obtain ⟨r, observed, s, asked⟩ := outcome
  rcases hsplit with ⟨hnone, hlocal⟩ | ⟨hsome, hremote⟩
  · cases r with
    | ok a => exact hlocal.elim
    | error e =>
      have hwhy : e.isLocal := hlocal
      refine ⟨iff_of_true ⟨e, rfl, hwhy⟩ hnone, fun _ h => by contradiction, fun _ h hremote => ?_⟩
      cases h
      exact absurd hwhy hremote
  · refine ⟨iff_of_false ?_ hsome, fun _ _ => hsome, fun _ _ _ => hsome⟩
    rintro ⟨e, rfl, hlocal⟩
    exact hremote hlocal

end Client

end Canopen
