import Canopen.ClientError
/-!
# Failures of the command line

Why a command fails, and what it was doing. A failure is told as a chain of texts, the most general
one first.
-/
namespace Canopen.Cli

open Canopen.Number Canopen.Text

inductive Activity where
  | readingConfig (path : String)
  | parsingConfig (path : String)
  | loadingCatalog
  | connecting
  | readingType (text : String)
  | readingAddress (text : String)
  | readingInteger (text : String)
  | readingUnsigned (text : String)
  | readingNumber (text : String)
  | readingBytes (text : String)
  | readingArgument (what text : String)
  | readingCommand (text : String)
  | querying (node : String)
  | commanding (command node : String)
  | writingEntry (entry : String)
  | writingField (entry field : String)
  | receiving (name : String)
  | sending (name : String)
  | readingFile (path : String)
  | writingFile (path : String)
  | sendingEmergency
  | sendingPdo (number : Nat)
  deriving DecidableEq, Repr

def Activity.text : Activity → String
  | readingConfig path => s!"Failed to read config file: {path}"
  | parsingConfig path => s!"Failed to parse config file: {path}"
  | loadingCatalog => "Failed to load object dictionary catalog"
  | connecting => "Failed to connect to node daemon"
  | readingType text => s!"Invalid data type '{text}'"
  | readingAddress text => s!"'{text}' is neither a known name nor an address"
  | readingInteger text => s!"Expected an integer, got '{text}'"
  | readingUnsigned text => s!"Expected an unsigned integer, got '{text}'"
  | readingNumber text => s!"Expected a number, got '{text}'"
  | readingBytes text => s!"Expected hex bytes, got '{text}'"
  | readingArgument what text => s!"Invalid {what} '{text}'"
  | readingCommand text => s!"Unknown NMT command '{text}'"
  | querying node => s!"Failed to query node {node}"
  | commanding command node => s!"Failed to send {command} to node {node}"
  | writingEntry entry => s!"Failed to write {entry}"
  | writingField entry field => s!"Failed to write {entry}.{field}"
  | receiving name => s!"Failed to read '{name}'"
  | sending name => s!"Failed to write '{name}'"
  | readingFile path => s!"Failed to read {path}"
  | writingFile path => s!"Failed to write {path}"
  | sendingEmergency => "Failed to send emergency"
  | sendingPdo number => s!"Failed to send TPDO {number}"

inductive Failure where
  | dictionary (e : DictionaryError)
  | client (e : ClientError)
  | file (fault : FileFault)
  | config (detail : String)
  | hex (fault : Hex.Fault)
  | float (fault : FloatFault)
  | unknownEntry (identifier : String)
  | notBoolean (text : String)
  | integerOutOfRange (text : String)
  | argumentOutOfRange (what text : String)
  | indexOutOfRange (text : String)
  | noFileName (path : String)
  | during (activity : Activity) (cause : Failure)
  deriving DecidableEq, Repr

namespace Failure

/-- The texts of a failure, the most general one first. -/
def chain : Failure → List String
  | dictionary e => [e.message]
  | client e => [e.message]
  | file fault => [fault.message]
  | config detail => ["TOML parse error " ++ detail]
  | hex fault => [fault.message]
  | float fault => [fault.message]
  | unknownEntry identifier =>
    [s!"Unknown entry '{identifier}' (pass --type to use an address outside the catalog)"]
  | notBoolean text => [s!"Expected a boolean, got '{text}'"]
  | integerOutOfRange text => [s!"Integer '{text}' out of range"]
  | argumentOutOfRange what text => [s!"{what} '{text}' out of range"]
  | indexOutOfRange text => [s!"Index '{text}' out of range"]
  | noFileName path => [s!"Cannot derive a file name from {path}"]
  | during activity cause => activity.text :: cause.chain

/-- A line with what comes after its line ends moved to the right. -/
def indentAfter (columns : Nat) (s : String) : String :=
  String.ofList (s.toList.flatMap fun c =>
    if c = '\n' then '\n' :: List.replicate columns ' ' else [c])

def numbered (n : Nat) (cause : String) : String :=
  let digits := toString n
  String.ofList (List.replicate (5 - digits.length) ' ') ++ digits ++ ": " ++ indentAfter 7 cause

/-- The report of a failure: the first text and, apart from it, the causes. -/
def report (f : Failure) : String :=
  match f.chain with
  | [] => "Error: \n"
  | [text] => "Error: " ++ text ++ "\n"
  | [text, cause] => "Error: " ++ text ++ "\n\nCaused by:\n    " ++ indentAfter 4 cause ++ "\n"
  | text :: causes =>
    "Error: " ++ text ++ "\n\nCaused by:\n" ++
      String.join (causes.zipIdx.map fun (cause, n) => numbered n cause ++ "\n")

end Failure

def within {α : Type} (activity : Activity) : Except Failure α → Except Failure α
  | .ok a => .ok a
  | .error cause => .error (.during activity cause)

end Canopen.Cli
