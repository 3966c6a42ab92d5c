/-!
# Comma-separated values

Records of fields, one record a line. A field with a comma, a quote or a line end stands in quotes,
in which a quote is written twice.
-/
namespace Canopen.Cli.Csv

/-- Holds of the characters that only stand in quotes. -/
def isSpecial (c : Char) : Bool := c = ',' || c = '"' || c = '\n'

/-- Writes each quote twice. -/
def doubleQuotes (cs : List Char) : List Char :=
  cs.flatMap fun c => if c = '"' then ['"', '"'] else [c]

theorem doubleQuotes_quote (cs : List Char) :
    doubleQuotes ('"' :: cs) = '"' :: '"' :: doubleQuotes cs := rfl

theorem doubleQuotes_cons {c : Char} (h : c ≠ '"') (cs : List Char) :
    doubleQuotes (c :: cs) = c :: doubleQuotes cs := by
  simp [doubleQuotes, h]

def field (cs : List Char) : List Char :=
  if cs.any isSpecial then '"' :: (doubleQuotes cs ++ ['"']) else cs

/-- The fields of a record, parted by commas. -/
def record : List (List Char) → List Char
  | [] => []
  | [f] => field f
  | f :: rest => field f ++ ',' :: record rest

/-- Records, each with a line end. -/
def records (rs : List (List (List Char))) : List Char := rs.flatMap fun r => record r ++ ['\n']

def text (rs : List (List String)) : String :=
  String.ofList (records (rs.map fun r => r.map String.toList))

end Canopen.Cli.Csv
