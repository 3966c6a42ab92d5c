import Canopen.ClientError
import Canopen.Definition
import Canopen.Standard
import Canopen.Toml.Reader
import Canopen.Toml.Writer
/-!
# Client configuration

How long a client waits, which catalog it uses beside the standard entries, and how it reaches the
daemon. A configuration is written in TOML; what a text leaves out has a default, and what it holds
beyond the known keys is passed over.
-/
namespace Canopen

structure Endpoint where
  host : String := "127.0.0.1"
  port : UInt16 := 5555
  connectTimeout : Duration := ⟨2000⟩
  deriving DecidableEq, Repr, Inhabited

def Endpoint.place (e : Endpoint) : String := e.host ++ ":" ++ toString e.port.toNat

/-- A daemon inside the client's own process, for tests. -/
structure LocalDaemon where
  latency : Duration := ⟨0⟩
  localNode : UInt8 := 1
  deriving DecidableEq, Repr, Inhabited

inductive LinkConfig where
  | tcp (endpoint : Endpoint)
  | mock (daemon : LocalDaemon)
  deriving DecidableEq, Repr

structure Config where
  requestTimeout : Duration := ⟨1000⟩
  catalog : Option String := none
  link : LinkConfig := .tcp {}
  deriving DecidableEq, Repr

namespace Toml

def text? : Toml → Option String
  | str s => some s
  | _ => none

def bool? : Toml → Option Bool
  | bool b => some b
  | _ => none

/-- A whole number without a sign, below a limit. -/
def natural? (limit : Nat) : Toml → Option Nat
  | int v => if 0 ≤ v ∧ v < limit then some v.toNat else none
  | _ => none

/-- A key that has a default. -/
def readKeyOr? {α : Type} (members : Members) (key : String) (absent : α) (read : Toml → Option α) :
    Option α :=
  match members.lookup key with
  | some v => read v
  | none => some absent

/-- Names the items of an array in order. -/
def zipKeys : List String → List Toml → Option Members
  | _, [] => some []
  | [], _ :: _ => none
  | key :: keys, v :: items => (zipKeys keys items).map ((key, v) :: ·)

def duration? (v : Toml) : Option Duration := (v.natural? (2 ^ 64)).map Duration.mk

end Toml

open Toml

/-- The keys of an endpoint, in order. -/
def Endpoint.keys : List String := ["host", "port", "connect_timeout_ms"]

def Endpoint.ofMembers? (members : Members) : Option Endpoint := do
  let absent : Endpoint := {}
  let host ← readKeyOr? members "host" absent.host text?
  let port ← readKeyOr? members "port" absent.port fun v => (v.natural? (2 ^ 16)).map UInt16.ofNat
  let connectTimeout ← readKeyOr? members "connect_timeout_ms" absent.connectTimeout duration?
  return { host, port, connectTimeout }

def LocalDaemon.keys : List String := ["latency_ms", "local_node_id"]

def LocalDaemon.ofMembers? (members : Members) : Option LocalDaemon := do
  let absent : LocalDaemon := {}
  let latency ← readKeyOr? members "latency_ms" absent.latency duration?
  let localNode ← readKeyOr? members "local_node_id" absent.localNode fun v =>
    (v.natural? (2 ^ 8)).map UInt8.ofNat
  return { latency, localNode }

namespace LinkConfig

/-- Reads a link of the kind of the given name. -/
def ofKind? (kind : String) (members : List String → Option Members) : Option LinkConfig :=
  if kind = "tcp" then ((members Endpoint.keys).bind Endpoint.ofMembers?).map tcp
  else if kind = "mock" then ((members LocalDaemon.keys).bind LocalDaemon.ofMembers?).map mock
  else none

/-- Reads a link: a table with the kind among its keys, or an array that begins with the kind. -/
def ofToml? : Toml → Option LinkConfig
  | .table _ members =>
    match members.lookup "type" with
    | some (.str kind) => ofKind? kind fun _ => some (members.filter fun m => m.1 ≠ "type")
    | _ => none
  | .array (.str kind :: items) => ofKind? kind fun keys => zipKeys keys items
  | _ => none

/-- The lines of a link's table. -/
def lines : LinkConfig → List String
  | tcp e =>
    ["type = \"tcp\"", "host = " ++ quote e.host, s!"port = {e.port.toNat}",
      s!"connect_timeout_ms = {e.connectTimeout.milliseconds}"]
  | mock d =>
    ["type = \"mock\"", s!"latency_ms = {d.latency.milliseconds}",
      s!"local_node_id = {d.localNode.toNat}"]

end LinkConfig

namespace Config

def ofMembers? (members : Members) : Option Config := do
  let absent : Config := {}
  let requestTimeout ← readKeyOr? members "request_timeout_ms" absent.requestTimeout duration?
  let catalog ← readKeyOr? members "catalog" none fun v => v.text?.map some
  let link ← readKeyOr? members "transport" absent.link LinkConfig.ofToml?
  return { requestTimeout, catalog, link }

def ofToml (text : String) : Except ClientError Config :=
  match (Toml.parse? text).bind ofMembers? with
  | some config => .ok config
  | none => .error (.config (.toml "(the text is not a client configuration)"))

def toToml (c : Config) : String :=
  let catalog :=
    match c.catalog with
    | some path => ["catalog = " ++ quote path]
    | none => []
  let lines := [s!"request_timeout_ms = {c.requestTimeout.milliseconds}"] ++ catalog ++
    ["", "[transport]"] ++ c.link.lines
  String.join (lines.map (· ++ "\n"))

end Config

/-- The bytes of a file, by its path. -/
abbrev FileReader := String → Except FileFault (List UInt8)

def FileReader.readText (files : FileReader) (path : String) : Except FileFault String :=
  match files path with
  | .error fault => .error fault
  | .ok bytes =>
    match Text.Utf8.decode bytes with
    | .ok text => .ok text
    | .error _ => .error .notText

def Catalog.ofFile (files : FileReader) (path : String) : Except DictionaryError Catalog :=
  match files.readText path with
  | .ok text => Catalog.ofYaml text
  | .error fault => .error (.file fault)

namespace Config

def ofFile (files : FileReader) (path : String) : Except ClientError Config :=
  match files.readText path with
  | .ok text => ofToml text
  | .error fault => .error (.config (.file path fault))

/-- The standard entries with those of the configured catalog. -/
def loadCatalog (files : FileReader) (c : Config) : Except ClientError Catalog :=
  match c.catalog with
  | none => .ok Standard.catalog
  | some path =>
    match (Catalog.ofFile files path).bind Standard.catalog.merge with
    | .ok catalog => .ok catalog
    | .error e => .error (.dictionary e)

end Config

end Canopen
