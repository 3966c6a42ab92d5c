import Canopen.Cli.Csv
import Canopen.Cli.Table
import Canopen.Json.Basic
import Canopen.Text.Utf8
/-!
# Output of the command line

What commands print: rows of texts as a table, as JSON or as CSV, and messages. A transcript holds
what has been written so far to the two outputs.
-/
namespace Canopen.Cli

open Canopen.Text

inductive OutputFormat where
  | table
  | json
  | csv
  deriving DecidableEq, Repr, Inhabited

def OutputFormat.ofName? : String → Option OutputFormat
  | "table" => some .table
  | "json" => some .json
  | "csv" => some .csv
  | _ => none

structure Style where
  format : OutputFormat := .table
  quiet : Bool := false
  deriving DecidableEq, Repr

structure Transcript where
  out : List UInt8 := []
  err : String := ""
  deriving DecidableEq, Repr

namespace Transcript

def write (t : Transcript) (bytes : List UInt8) : Transcript := { t with out := t.out ++ bytes }

def print (t : Transcript) (s : String) : Transcript := t.write (Utf8.encode s)

def line (t : Transcript) (s : String) : Transcript := t.print (s ++ "\n")

/-- Prints a line unless the command is to be quiet. -/
def message (t : Transcript) (style : Style) (s : String) : Transcript :=
  if style.quiet then t else t.line s

/-- Prints a line to the output for errors. -/
def warn (t : Transcript) (s : String) : Transcript := { t with err := t.err ++ s ++ "\n" }

end Transcript

/-- A kind of rows: the columns, by title and by key, and the text of each in a row. -/
class Tabular (α : Type) where
  titles : List String
  /-- The keys in JSON and CSV. -/
  keys : List String
  /-- The texts of a row, in the order of the columns. -/
  cells : α → List String

namespace Tabular

variable {α : Type} [Tabular α]

/-- The members of a row in JSON. -/
def members (row : α) : List (String × String) := (keys α).zip (cells row)

def json (row : α) : Json := .object ((members row).map fun (k, v) => (k, .str v))

/-- The members of a row in CSV, in the order of their keys. -/
def sorted (row : α) : List (String × String) :=
  (members row).mergeSort fun a b => decide (a.1 ≤ b.1)

def sortedKeys (α : Type) [Tabular α] : List String := (keys α).mergeSort fun a b => decide (a ≤ b)

/-- The texts of a row in CSV. -/
def record (row : α) : List String := (sorted row).map Prod.snd

/-- Rows as CSV with the keys in front. Without rows there is nothing. -/
def csv (rows : List α) : String :=
  if rows.isEmpty then "" else Csv.text (sortedKeys α :: rows.map record)

def table (rows : List α) : String := Table.text (titles α :: rows.map cells)

end Tabular

open Tabular

namespace Transcript

variable {α : Type} [Tabular α]

def rows (t : Transcript) (style : Style) (rs : List α) : Transcript :=
  match style.format with
  | .table => if rs.isEmpty then t.message style "No data" else t.line (table rs)
  | .json => t.line ((Json.array (rs.map json)).pretty 0)
  | .csv => t.print (csv rs)

/-- Prints a row that comes alone: in a table it is the given line. -/
def row (t : Transcript) (style : Style) (r : α) (text : String) : Transcript :=
  match style.format with
  | .table => t.line text
  | .json => t.line (json r).compact
  | .csv => t.print (Csv.text [record r])

end Transcript

def nodeLabel (node : UInt8) : String := "0x" ++ Hex.padded 2 node.toNat

structure NodeRow where
  node : String
  state : String
  deriving DecidableEq, Repr

instance : Tabular NodeRow where
  titles := ["Node", "State"]
  keys := ["node", "state"]
  cells r := [r.node, r.state]

structure EntryRow where
  address : String
  name : String
  type : String
  access : String
  fields : String
  deriving DecidableEq, Repr

instance : Tabular EntryRow where
  titles := ["Address", "Name", "Type", "Access", "Fields"]
  keys := ["address", "name", "data_type", "access", "fields"]
  cells r := [r.address, r.name, r.type, r.access, r.fields]

structure ValueRow where
  entry : String
  address : String
  value : String
  raw : String
  deriving DecidableEq, Repr

instance : Tabular ValueRow where
  titles := ["Entry", "Address", "Value", "Raw"]
  keys := ["entry", "address", "value", "raw"]
  cells r := [r.entry, r.address, r.value, r.raw]

structure NodeValueRow where
  node : String
  value : String
  deriving DecidableEq, Repr

instance : Tabular NodeValueRow where
  titles := ["Node", "Value"]
  keys := ["node", "value"]
  cells r := [r.node, r.value]

structure NodeResultRow where
  node : String
  result : String
  deriving DecidableEq, Repr

instance : Tabular NodeResultRow where
  titles := ["Node", "Result"]
  keys := ["node", "result"]
  cells r := [r.node, r.result]

structure EventRow where
  time : String
  node : String
  kind : String
  detail : String
  deriving DecidableEq, Repr

instance : Tabular EventRow where
  titles := ["Time", "Node", "Event", "Detail"]
  keys := ["elapsed", "node", "kind", "detail"]
  cells r := [r.time, r.node, r.kind, r.detail]

end Canopen.Cli
