import Canopen.Cli.Usage
/-!
# The program

From arguments, the environment and files to what is printed and the status at the end. What needs
the daemon is left over as an order.
-/
namespace Canopen.Cli

/-- What the program is given: its arguments, the environment and the files to be read. -/
structure Setting where
  arguments : List String
  environment : String → Option String
  files : FileReader

inductive Ending where
  | ended (status : Nat) (printed : Transcript)
  | misused
  deriving DecidableEq, Repr

/-- A command that needs the daemon. -/
structure Order where
  client : Config
  catalog : Catalog
  style : Style
  command : Command

def versionText (command : Option String) : String :=
  "canopend-cli" ++ (command.elim "" fun name => "-" ++ name) ++ " 0.1.0\n"

def helpText : String :=
  "Usage: canopend-cli [OPTIONS] <COMMAND>\n\nCommands:\n" ++
    String.join (usages.map fun u => "  " ++ u.1 ++ "\n")

def Ending.ofResult (r : Except Failure Unit) (t : Transcript) : Ending :=
  match r with
  | .ok () => .ended 0 t
  | .error f => .ended 1 { t with err := t.err ++ f.report }

def settingsPath? (environment : String → Option String) : Option String :=
  let place :=
    match (environment "XDG_CONFIG_HOME").filter (·.startsWith "/") with
    | some place => some place
    | none => ((environment "HOME").filter (· != "")).map (· ++ "/.config")
  place.map (· ++ "/canopend-cli/config.toml")

/-- The settings: those in the file that an option names, or else those of the user, which need not be
there. -/
def Setting.settings (s : Setting) (options : Given) : Except Failure Settings :=
  match options.value? "config" with
  | some path => Settings.ofFile s.files path
  | none => .ok (((settingsPath? s.environment).map (Settings.ofFile s.files)).bind
      Except.toOption |>.getD {})

def Overrides.ofGiven (g : Given) : Overrides where
  host := g.value? "host"
  port := ((g.value? "port").bind (readBelow? (2 ^ 16))).map UInt16.ofNat
  timeout := ((g.value? "timeout").bind readTime?).map Duration.mk
  catalog := g.value? "catalog"
  noColor := g.has "no-color"

/-- How the program prints. The format in the settings may be in capital letters; one that is unknown
does not count. -/
def Style.ofGiven (g : Given) (p : Preferences) : Style where
  format :=
    match g.value? "output" with
    | some name => (OutputFormat.ofName? name).getD .table
    | none => (p.output.bind fun name => OutputFormat.ofName? (lowerCase name)).getD .table
  quiet := g.has "quiet"

/-- The options given to the program, if it is to carry out a command. -/
def Setting.options? (s : Setting) : Option Given :=
  match Invocation.ofArguments s.environment s.arguments with
  | .run options _ => some options
  | _ => none

/-- The path of the settings that are looked at. -/
def Setting.settingsPath? (s : Setting) : Option String :=
  s.options?.bind fun options => options.value? "config" <|> Cli.settingsPath? s.environment

/-- The path of the catalog that is loaded beside the standard entries. -/
def Setting.catalogPath? (s : Setting) : Option String := do
  let options ← s.options?
  let settings ← (s.settings options).toOption
  (settings.apply (.ofGiven options)).client.catalog

/-- What the program does with a command: all of it, or an order that is left over. -/
def Setting.carryOut (s : Setting) (options : Given) (command : Command) : Ending ⊕ Order :=
  match s.settings options with
  | .error f => .inl (.ofResult (.error f) {})
  | .ok settings =>
    let p := settings.apply (.ofGiven options)
    let style := Style.ofGiven options p
    match within .loadingCatalog (ofClient (p.client.loadCatalog s.files)) with
    | .error f => .inl (.ofResult (.error f) {})
    | .ok catalog =>
      match command with
      | .entries index =>
        let (r, t) := entries catalog style index {}
        .inl (.ofResult r t)
      | command => .inr ⟨p.client, catalog, style, command⟩

/-- What the program does: all of it, or an order that is left over. -/
def Setting.start (s : Setting) : Ending ⊕ Order :=
  match Invocation.ofArguments s.environment s.arguments with
  | .wrong => .inl .misused
  | .version command => .inl (.ended 0 (({} : Transcript).print (versionText command)))
  | .help => .inl (.ended 0 (({} : Transcript).print helpText))
  | .run options command => s.carryOut options command

namespace Order

def endpoint (o : Order) : Endpoint :=
  match o.client.link with
  | .tcp e => e
  | .mock _ => {}

/-- The end of an order if the daemon cannot be reached. -/
def refused (e : LinkError) : Ending :=
  .ofResult (.error (.during .connecting (.client (.link e)))) {}

def run {σ : Type} (o : Order) (outside : Outside σ) (world : σ) : Ending × σ :=
  let network : Network := { limit := o.client.requestTimeout }
  let (r, c) := o.command.run outside o.catalog o.style { session := { network }, world }
  (.ofResult r c.transcript, c.world)

end Order

end Canopen.Cli
