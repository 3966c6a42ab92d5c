import Canopen.Cli.Failure
import Canopen.Config
/-!
# Configuration of the command line

The settings of a user, which options on the command line override, and the client configuration
that results.
-/
namespace Canopen.Cli

open Canopen.Toml

structure Settings where
  host : Option String := none
  port : Option UInt16 := none
  timeout : Option Duration := none
  catalog : Option String := none
  output : Option String := none
  noColor : Option Bool := none
  deriving DecidableEq, Repr

/-- The options on the command line that override settings. -/
structure Overrides where
  host : Option String := none
  port : Option UInt16 := none
  timeout : Option Duration := none
  catalog : Option String := none
  noColor : Bool := false
  deriving DecidableEq, Repr

structure Preferences where
  client : Config
  output : Option String
  noColor : Bool
  deriving DecidableEq, Repr

namespace Settings

/-- Reads a key that need not be there. -/
def readKey? {α : Type} (members : Members) (key : String) (read : Toml → Option α) :
    Option (Option α) :=
  readKeyOr? members key none fun v => (read v).map some

def ofMembers? (members : Members) : Option Settings := do
  let host ← readKey? members "host" text?
  let port ← readKey? members "port" fun v => (v.natural? (2 ^ 16)).map UInt16.ofNat
  let timeout ← readKey? members "timeout_ms" duration?
  let catalog ← readKey? members "catalog" text?
  let output ← readKey? members "output" text?
  let noColor ← readKey? members "no_color" bool?
  return { host, port, timeout, catalog, output, noColor }

def ofFile (files : FileReader) (path : String) : Except Failure Settings :=
  match files.readText path with
  | .error fault => .error (.during (.readingConfig path) (.file fault))
  | .ok text =>
    match (Toml.parse? text).bind ofMembers? with
    | some settings => .ok settings
    | none => .error (.during (.parsingConfig path) (.config "(the text holds no settings)"))

def apply (s : Settings) (o : Overrides) : Preferences :=
  let absent : Endpoint := {}
  { client :=
      { requestTimeout := (o.timeout <|> s.timeout).getD ({} : Config).requestTimeout
        catalog := o.catalog <|> s.catalog
        link := .tcp
          { host := (o.host <|> s.host).getD absent.host
            port := (o.port <|> s.port).getD absent.port } }
    output := s.output
    noColor := o.noColor || s.noColor.getD false }

end Settings

end Canopen.Cli
