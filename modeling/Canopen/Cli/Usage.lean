import Canopen.Cli.Command
import Canopen.Cli.Config
/-!
# Usage of the program

What the program can be given: options of its own, then a command with its options and words. An
option has a long name and may have a letter; its value follows it, or is attached to it. Two hyphens
alone make all that follows words.
-/
namespace Canopen.Cli

/-- An option of a command line. A flag has no value. -/
structure OptionForm where
  name : String
  letter : Option Char := none
  /-- Which values the option takes. -/
  accepts : Option (String → Bool) := some fun _ => true

structure Form where
  options : List OptionForm := []
  /-- Which words it takes, in order. -/
  words : List (String → Bool) := []
  /-- How many of the words must be given. -/
  needed : Nat := words.length
  /-- Whether any number of further words is taken. -/
  isOpen : Bool := false

structure Given where
  /-- The options with their values, those given last first. A flag has an empty value. -/
  options : List (String × String) := []
  words : List String := []
  deriving DecidableEq, Repr

namespace Given

def value? (g : Given) (name : String) : Option String := g.options.lookup name

def has (g : Given) (name : String) : Bool := (g.value? name).isSome

def word (g : Given) (k : Nat) : String := g.words.getD k ""

end Given

inductive Reading where
  /-- All arguments are read, or all before the name of a command. -/
  | given (g : Given) (command : Option (String × List String))
  | version
  | help
  | wrong
  deriving DecidableEq, Repr

namespace Form

/-- Adds an option with its value. An option can be given once and only with a value it takes. -/
def addOption? (o : OptionForm) (value : Option String) (g : Given) : Option Given :=
  let fits :=
    match o.accepts, value with
    | none, none => true
    | some accepts, some v => accepts v
    | _, _ => false
  if fits && !g.has o.name then some { g with options := (o.name, value.getD "") :: g.options }
  else none

def addWord? (f : Form) (word : String) (g : Given) : Option Given :=
  let fits :=
    match f.words[g.words.length]? with
    | some accepts => accepts word
    | none => f.isOpen
  if fits then some { g with words := g.words ++ [word] } else none

/-- What an argument that begins with a hyphen asks for. -/
inductive Asked where
  | given (g : Given)
  /-- An option whose value is the next argument. -/
  | valueOf (o : OptionForm) (g : Given)
  | version
  | help
  | wrong

def Asked.ofGiven? : Option Given → Asked
  | some g => .given g
  | none => .wrong

/-- Reads a long option, which may have a value attached. -/
def readLong (f : Form) (name : String) (attached : Option String) (g : Given) : Asked :=
  match f.options.find? fun o => o.name = name with
  | some o =>
    if o.accepts.isSome && attached.isNone then .valueOf o g else .ofGiven? (addOption? o attached g)
  | none =>
    if attached.isSome then .wrong
    else if name = "version" then .version
    else if name = "help" then .help
    else .wrong

/-- Reads letters of options. What follows the letter of an option with a value is its value, without
the equals sign that may stand in front. -/
def readLetters (f : Form) : List Char → Given → Asked
  | [], g => .given g
  | c :: rest, g =>
    match f.options.find? fun o => o.letter = some c with
    | some o =>
      if o.accepts.isNone then
        match addOption? o none g with
        | some g => readLetters f rest g
        | none => .wrong
      else
        match rest with
        | [] => .valueOf o g
        | '=' :: value => .ofGiven? (addOption? o (some (String.ofList value)) g)
        | value => .ofGiven? (addOption? o (some (String.ofList value)) g)
    | none => if c = 'V' then .version else if c = 'h' then .help else .wrong

/-- The part of a text before its first equals sign and, if there is one, the part behind it. -/
def splitValue (cs : List Char) : String × Option String :=
  let name := String.ofList (cs.takeWhile (· ≠ '='))
  match cs.dropWhile (· ≠ '=') with
  | [] => (name, none)
  | _ :: value => (name, some (String.ofList value))

def readArgument (f : Form) (arg : String) (g : Given) : Asked :=
  match arg.toList with
  | '-' :: '-' :: long =>
    let (name, attached) := splitValue long
    f.readLong name attached g
  | '-' :: c :: letters => f.readLetters (c :: letters) g
  | _ => .ofGiven? (f.addWord? arg g)

/-- Holds of the arguments that are no values of an option before them. -/
def isMarked (arg : String) : Bool :=
  match arg.toList with
  | '-' :: _ :: _ => true
  | _ => false

/-- Reads words only. -/
def readWords (f : Form) : List String → Given → Reading
  | [], g => .given g none
  | arg :: rest, g =>
    match f.addWord? arg g with
    | some g => f.readWords rest g
    | none => .wrong

/-- Reads arguments up to the name of a command. -/
def readAll (f : Form) (isCommand : String → Bool) : List String → Given → Reading
  | [], g => .given g none
  | arg :: rest, g =>
    if isCommand arg then .given g (some (arg, rest))
    else if arg = "--" then f.readWords rest g
    else
      match f.readArgument arg g with
      | .given g => f.readAll isCommand rest g
      | .version => .version
      | .help => .help
      | .wrong => .wrong
      | .valueOf o g =>
        match rest with
        | [] => .wrong
        | value :: rest =>
          if isMarked value then .wrong
          else
            match addOption? o (some value) g with
            | some g => f.readAll isCommand rest g
            | none => .wrong

end Form

/-! ## Values -/

/-- Reads a number below a limit, in decimal digits with a sign that may be there. -/
def readBelow? (limit : Nat) (s : String) : Option Nat :=
  match Number.readInteger? s.toList with
  | some n => if 0 ≤ n ∧ n < limit then some n.toNat else none
  | none => none

/-- Reads a span of time in milliseconds. It has no minus sign, not even for zero. -/
def readTime? (s : String) : Option Nat := Number.readUnsigned? 10 (2 ^ 64) s.toList

def isNode (s : String) : Bool := (readNode s).toOption.isSome

def isTarget (s : String) : Bool := (readTarget s).toOption.isSome

/-- Holds of paths, which are not empty. -/
def isPath (s : String) : Bool := s != ""

def isText (_ : String) : Bool := true

/-! ## The program and its commands -/

def programForm : Form where
  options :=
    [{ name := "host" },
      { name := "port", letter := 'p', accepts := some fun s => (readBelow? (2 ^ 16) s).isSome },
      { name := "timeout", letter := 't', accepts := some fun s => (readTime? s).isSome },
      { name := "catalog", accepts := some isPath },
      { name := "config", letter := 'c', accepts := some isPath },
      { name := "output", letter := 'o', accepts := some fun s => (OutputFormat.ofName? s).isSome },
      { name := "no-color", accepts := none },
      { name := "quiet", letter := 'q', accepts := none },
      { name := "verbose", letter := 'v', accepts := none }]

/-- The variable of the environment that stands in for an option of the program. -/
def variableOf : String → Option String
  | "host" => some "CANOPEND_HOST"
  | "port" => some "CANOPEND_PORT"
  | "timeout" => some "CANOPEND_TIMEOUT_MS"
  | "catalog" => some "CANOPEND_CATALOG"
  | "config" => some "CANOPEND_CONFIG"
  | _ => none

/-- The options of an entry that need not be in the catalog. -/
def entryOptions : List OptionForm := [{ name := "field" }, { name := "type" }]

/-- What a command can be given and what it then is. -/
structure Usage where
  form : Form
  command : Given → Option Command

def firstNode? (g : Given) : Option UInt8 := (readNode (g.word 0)).toOption

def firstTarget? (g : Given) : Option Target := (readTarget (g.word 0)).toOption

def usages : List (String × Usage) :=
  [("nodes", ⟨{}, fun _ => some .nodes⟩),
    ("entries", ⟨{ options := [{ name := "index" }] }, fun g => some (.entries (g.value? "index"))⟩),
    ("read",
      ⟨{ options := entryOptions, words := [isNode, isText], isOpen := true },
        fun g => (firstNode? g).map fun node =>
          .read node (g.words.drop 1) (g.value? "field") (g.value? "type")⟩),
    ("write",
      ⟨{ options := entryOptions, words := [isNode, isText, isText] },
        fun g => (firstNode? g).map fun node =>
          .write node (g.word 1) (g.word 2) (g.value? "field") (g.value? "type")⟩),
    ("read-all",
      ⟨{ options := entryOptions, words := [isText] },
        fun g => some (.readAll (g.word 0) (g.value? "field") (g.value? "type"))⟩),
    ("state", ⟨{ words := [isTarget] }, fun g => (firstTarget? g).map .state⟩),
    ("nmt",
      ⟨{ words := [isTarget, isText] }, fun g => (firstTarget? g).map fun t => .command t (g.word 1)⟩),
    ("emcy",
      ⟨{ words := [isNode, isText, isText], needed := 2 },
        fun g => (firstNode? g).map fun node => .emergency node (g.word 1) (g.words.getD 2 "0")⟩),
    ("tpdo",
      ⟨{ words := [isNode, fun s => (readBelow? 256 s).isSome] },
        fun g => do
          let node ← firstNode? g
          let number ← readBelow? 256 (g.word 1)
          return .sendPdo node (UInt8.ofNat number)⟩),
    ("fread",
      ⟨{ options := [{ name := "out", letter := 'O', accepts := some isPath }]
         words := [isNode, isText] },
        fun g => (firstNode? g).map fun node => .receive node (g.word 1) (g.value? "out")⟩),
    ("fwrite",
      ⟨{ options := [{ name := "name" }], words := [isNode, isPath] },
        fun g => (firstNode? g).map fun node => .send node (g.word 1) (g.value? "name")⟩),
    ("monitor",
      ⟨{ options := [{ name := "node", accepts := some isNode }] },
        fun g => some (.monitor ((g.value? "node").bind fun s => (readNode s).toOption))⟩)]

inductive Invocation where
  | run (options : Given) (command : Command)
  /-- Tell the version of the program or of a command. -/
  | version (command : Option String)
  | help
  | wrong

/-- Adds the options of the program that the environment stands in for. -/
def addVariables (environment : String → Option String) :
    List OptionForm → Given → Option Given
  | [], g => some g
  | o :: rest, g =>
    match (variableOf o.name).bind environment with
    | none => addVariables environment rest g
    | some value =>
      if g.has o.name then addVariables environment rest g
      else (Form.addOption? o (some value) g).bind (addVariables environment rest)

def Usage.read (u : Usage) (name : String) (environment : String → Option String) (options : Given)
    (args : List String) : Invocation :=
  match u.form.readAll (fun _ => false) args {} with
  | .version => .version (some name)
  | .help => .help
  | .wrong => .wrong
  | .given g _ =>
    let invocation : Option Invocation := do
      let options ← addVariables environment programForm.options options
      if g.words.length < u.form.needed then none
      else return Invocation.run options (← u.command g)
    invocation.getD .wrong

def Invocation.ofArguments (environment : String → Option String) (args : List String) : Invocation :=
  let isCommand (arg : String) : Bool := arg = "help" || (usages.lookup arg).isSome
  match programForm.readAll isCommand args {} with
  | .version => .version none
  | .help => .help
  | .wrong | .given _ none => .wrong
  | .given options (some (name, args)) =>
    match usages.lookup name with
    | some u => u.read name environment options args
    | none =>
      match args with
      | [] => .help
      | [topic] => if isCommand topic then .help else .wrong
      | _ => .wrong

end Canopen.Cli
