import Canopen.Text.Width
/-!
# Tables

Rows of cells drawn with characters, with a rule around each row. A cell with several lines makes
its row higher; a column is as wide as its widest line.
-/
namespace Canopen.Cli.Table

open Canopen.Text

def lines (cell : String) : List (List Char) := (cell.splitOn "\n").map String.toList

def width (cell : String) : Nat := ((lines cell).map lineWidth).foldl max 0

/-- The widths of the columns of rows of the same length. -/
def widths : List (List String) → List Nat
  | [] => []
  | [row] => row.map width
  | row :: rest => (row.map width).zipWith max (widths rest)

def rule (ws : List Nat) : String :=
  String.join (ws.map fun w => "+" ++ String.ofList (List.replicate (w + 2) '-')) ++ "+"

/-- A line of a cell, filled up to the width of its column. -/
def padded (w : Nat) (line : List Char) : String :=
  "| " ++ String.ofList (line ++ List.replicate (w - lineWidth line) ' ') ++ " "

def rowLines (ws : List Nat) (row : List String) : List String :=
  let height := (row.map fun cell => (lines cell).length).foldl max 1
  (List.range height).map fun i =>
    String.join ((ws.zip row).map fun (w, cell) => padded w ((lines cell).getD i [])) ++ "|"

def text (rows : List (List String)) : String :=
  let ws := widths rows
  String.intercalate "\n" (rule ws :: rows.flatMap fun row => rowLines ws row ++ [rule ws])

end Canopen.Cli.Table
