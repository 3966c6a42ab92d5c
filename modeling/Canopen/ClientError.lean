import Canopen.DictionaryError
import Canopen.Access
import Canopen.NodeState
import Canopen.Reply
/-!
# Errors of a client

What can go wrong in an operation of a client, by cause. Its kind follows from the cause; errors of
some kinds arise before anything is sent.
-/
namespace Canopen

open Canopen.Text

inductive EntryUse where
  | read
  | write
  deriving DecidableEq, Repr

def EntryUse.name : EntryUse → String
  | .read => "read"
  | .write => "write"

inductive ConfigFault where
  | file (path : String) (fault : FileFault)
  | toml (detail : String)
  | incompleteCache
  deriving DecidableEq, Repr

def ConfigFault.message : ConfigFault → String
  | .file path fault => path ++ ": " ++ fault.message
  | .toml detail => "TOML parse error " ++ detail
  | .incompleteCache => "file cache without name or data entry"

inductive ClientError where
  | dictionary (e : DictionaryError)
  | noAccess (entry : String) (access : Access) (use : EntryUse)
  | commandNotAllowed (state : NodeState) (command : NodeCommand)
  | unknownCommand (name : String)
  | badFileName (name : String)
  | link (e : LinkError)
  | noHeartbeat (node : UInt8) (limit : Duration)
  | refused (why : Refusal)
  | unknownState (code : UInt8)
  | unexpected (reply : Reply)
  | config (fault : ConfigFault)
  deriving DecidableEq, Repr

namespace ClientError

inductive Kind where
  | range
  | typeMismatch
  | access
  | malformed
  | notFound
  | invalidTransition
  | timeout
  | transport
  | rejected
  | invalidArgument
  | config
  deriving DecidableEq, Repr

def dictionaryKind : DictionaryError → Kind
  | .outOfRange _ | .inexact .. | .unknownLabel .. => .range
  | .typeMismatch .. => .typeMismatch
  | .malformed .. => .malformed
  | .unknownBitField .. | .invalidAddress _ => .invalidArgument
  | .invalidDefinition _ | .duplicateEntry _ | .alreadyInstalled | .yaml _ | .file _ => .config

def linkKind : LinkError → Kind
  | .silent _ => .timeout
  | .malformed _ => .malformed
  | _ => .transport

def refusalKind : Refusal → Kind
  | .abort code => if code.isNotFound then .notFound else .rejected
  | .unknownNode _ => .notFound
  | .noSuchPdo _ => .rejected
  | .unknownMessage _ | .badLength => .malformed

def kind : ClientError → Kind
  | dictionary e => dictionaryKind e
  | noAccess .. => .access
  | commandNotAllowed .. => .invalidTransition
  | unknownCommand _ | badFileName _ => .invalidArgument
  | link e => linkKind e
  | noHeartbeat .. => .timeout
  | refused why => refusalKind why
  | unknownState _ | unexpected _ => .malformed
  | config _ => .config

/-- The words before the detail of an error. -/
def Kind.label : Kind → String
  | .range => "Value out of range: "
  | .typeMismatch => "Type mismatch: "
  | .access => "Access denied: "
  | .malformed => "Malformed data: "
  | .notFound => "Not found: "
  | .invalidTransition => "Invalid transition: "
  | .timeout => "Timeout: "
  | .transport => "Transport error: "
  | .rejected => "Rejected by daemon: "
  | .invalidArgument => "Invalid argument: "
  | .config => "Configuration error: "

/-- The detail of an error of the link. Silence and malformed frames have a kind of their own, which
already tells what they are. -/
def linkDetail : LinkError → String
  | .silent silence => silence.message
  | .malformed fault => fault.message
  | e => e.message

def refusalDetail : Refusal → String
  | .abort code => s!"{code.description} (abort 0x{Hex.padded 8 code.toNat})"
  | .unknownNode node => s!"node 0x{Hex.padded 2 node.toNat}"
  | .noSuchPdo number => s!"node has no TPDO {number.toNat}"
  | .unknownMessage id => s!"daemon does not know message 0x{Hex.padded 2 id.toNat}"
  | .badLength => "daemon rejected request length"

def detail : ClientError → String
  | dictionary e => e.message
  | noAccess entry access use => s!"cannot {use.name} '{entry}' ({access.text})"
  | commandNotAllowed state command => s!"{command.text} from observed state {state.text}"
  | unknownCommand name => s!"unknown NMT command '{name}'"
  | badFileName name => s!"'{name}' is not a cache file name"
  | link e => linkDetail e
  | noHeartbeat node limit => s!"no heartbeat from node 0x{Hex.padded 2 node.toNat} within {limit.text}"
  | refused why => refusalDetail why
  | unknownState code => s!"unknown NMT state code 0x{Hex.padded 2 code.toNat}"
  | unexpected reply => s!"unexpected response {reply.describe}"
  | config fault => fault.message

def message (e : ClientError) : String := e.kind.label ++ e.detail

/-- Holds of the kinds of errors that are found before anything is sent. -/
def Kind.isLocal : Kind → Bool
  | .range | .typeMismatch | .access | .invalidTransition | .invalidArgument | .config => true
  | _ => false

def isLocal (e : ClientError) : Bool := e.kind.isLocal

@[simp] theorem isLocal_link (e : LinkError) : (link e).isLocal = false := by
  cases e <;> rfl

@[simp] theorem isLocal_refused (why : Refusal) : (refused why).isLocal = false := by
  cases why with
  | abort code =>
    simp only [isLocal, kind, refusalKind]
    split <;> rfl
  | _ => rfl

/-- Holds where it can help to try again. -/
def isRetryable (e : ClientError) : Bool := e.kind = .timeout || e.kind = .transport

/-- Holds where the connection is gone. -/
def isLost : ClientError → Bool
  | link e => e.isLost
  | _ => false

/-- The abort code of an error that is a rejection. -/
def abortCode? : ClientError → Option AbortCode
  | refused (.abort code) => if code.isNotFound then none else some code
  | _ => none

end ClientError

def NodeCommand.parse (s : String) : Except ClientError NodeCommand :=
  match ofName? (normalized s) with
  | some command => .ok command
  | none => .error (.unknownCommand (normalized s))

def NodeCommand.check (state : NodeState) (command : NodeCommand) : Except ClientError Unit :=
  if state.allows command then .ok () else .error (.commandNotAllowed state command)

end Canopen
