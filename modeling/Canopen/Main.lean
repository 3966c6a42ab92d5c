import Canopen.Cli.Program
import Canopen.Cli.Rehearsal
import Canopen.Cli.Socket
/-!
# The command line

Reads files and variables, connects, and prints. What is done with all that is decided elsewhere.
-/
namespace Canopen.Cli

def printOut (t : Transcript) : IO Unit := do
  let out ← IO.getStdout
  out.write ⟨t.out.toArray⟩
  out.flush
  IO.eprint t.err

def loadFile (path : String) : IO (Except FileFault (List UInt8)) := do
  if path.toList.contains '\x00' then return .error .nulInPath
  try
    return .ok (← IO.FS.readBinFile path).toList
  catch e => return .error (.ofNumber (Socket.errorNumber e))

def storeFile (path : String) (bytes : List UInt8) : IO (Except FileFault Unit) := do
  if path.toList.contains '\x00' then return .error .nulInPath
  try
    IO.FS.writeBinFile path ⟨bytes.toArray⟩
    return .ok ()
  catch e => return .error (.ofNumber (Socket.errorNumber e))

def fulfil (s : Socket) : Wish → IO Fulfilment
  | .answers requests => return .answers (← s.exchange requests)
  | .content path => return .content (← loadFile path)
  | .storage path bytes => return .storage (← storeFile path bytes)

/-- Rehearses an order until nothing is wished for any more. -/
partial def Order.carryOut (o : Order) (s : Socket) (known : List Fulfilment) : IO Ending := do
  match o.run Rehearsal.outside { known } with
  | (_, { wish := some w, .. }) => o.carryOut s (known ++ [← fulfil s w])
  | (ending, _) => return ending

/-- Prints events as they come until the daemon is gone. -/
partial def watch (s : Socket) (style : Style) (node : Option UInt8) (start checks : Nat) : IO Unit := do
  let told := (← s.state.get).1.told.length
  let time := start + Client.checkPeriod * checks
  s.listen (time - (← IO.monoMsNow))
  let (c, _) ← s.state.get
  let now ← IO.monoMsNow
  let news := (c.told.drop told).map fun e => .signal (.event e) ⟨now - start⟩
  printOut (follow style node news {})
  if now < time then watch s style node start checks
  else
    printOut (follow style node [.check c.connected] {})
    if c.connected then watch s style node start (checks + 1)

def Order.perform (o : Order) (s : Socket) : IO Ending := do
  match o.command with
  | .monitor node =>
    printOut (monitor o.style node [] {})
    watch s o.style node (← IO.monoMsNow) 0
    return .ended 0 {}
  | _ => o.carryOut s []

/-- The variables of the environment that count. -/
def variableNames : List String :=
  programForm.options.filterMap (fun o => variableOf o.name) ++ ["XDG_CONFIG_HOME", "HOME"]

/-- Reads a file that may be asked for. -/
def known (path : Option String) : IO (List (String × Except FileFault (List UInt8))) :=
  match path with
  | some path => return [(path, ← loadFile path)]
  | none => return []

def runProgram (arguments : List String) : IO Ending := do
  let environment ← variableNames.filterMapM fun name => do
    return (← IO.getEnv name).map fun value => (name, value)
  let setting (files : List (String × Except FileFault (List UInt8))) : Setting :=
    { arguments
      environment := fun name => environment.lookup name
      files := fun path => (files.lookup path).getD (.error .notFound) }
  let files ← known (setting []).settingsPath?
  let files := files ++ (← known (setting files).catalogPath?)
  match (setting files).start with
  | .inl ending => return ending
  | .inr order =>
    match ← Socket.connect order.endpoint with
    | .error e => return Order.refused e
    | .ok s => order.perform s

end Canopen.Cli

open Canopen.Cli in
def main (arguments : List String) : IO UInt32 := do
  match ← runProgram arguments with
  | .ended status t =>
    Canopen.Cli.printOut t
    return UInt32.ofNat status
  | .misused =>
    IO.eprintln "The arguments are wrong; try --help."
    return 2
