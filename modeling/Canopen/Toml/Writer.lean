import Canopen.Text.Hex
/-!
# Writing texts in TOML

A text is written in the plainest of the forms that can hold it without escapes: between double
quotes, between single quotes, or over several lines between three of either. If none can, it is
written with escapes.
-/
namespace Canopen.Toml

open Canopen.Text

/-- What the characters of a text ask of its form. -/
structure TextForm where
  /-- The length of the longest run of single quotes. -/
  singleQuotes : Nat
  /-- The length of the longest run of double quotes. -/
  doubleQuotes : Nat
  /-- Whether it has characters that can only be written by escapes. -/
  hidden : Bool
  backslash : Bool
  lineEnd : Bool
  deriving DecidableEq, Repr

def longestRun (mark : Char) (cs : List Char) : Nat :=
  (cs.foldl (fun (longest, current) c =>
    if c = mark then (max longest (current + 1), current + 1) else (longest, 0)) (0, 0)).1

/-- Holds of the characters that can only be written by escapes. -/
def isHidden (c : Char) : Bool := (c.toNat < 32 && c ≠ '\t' && c ≠ '\n') || c.toNat = 127

def TextForm.ofChars (cs : List Char) : TextForm :=
  { singleQuotes := longestRun '\'' cs
    doubleQuotes := longestRun '"' cs
    hidden := cs.any isHidden
    backslash := cs.contains '\\'
    lineEnd := cs.contains '\n' }

/-- The escape of a character, if it needs one between double quotes. Line ends stand for themselves
where there are several lines. -/
def escape? (multiline : Bool) (c : Char) : Option (List Char) :=
  if c.toNat = 8 then some ['\\', 'b']
  else if c = '\t' then some ['\\', 't']
  else if c = '\n' then if multiline then none else some ['\\', 'n']
  else if c.toNat = 12 then some ['\\', 'f']
  else if c = '\r' then some ['\\', 'r']
  else if c = '\\' then some ['\\', '\\']
  else if c.toNat < 32 || c.toNat = 127 then
    some ('\\' :: 'u' :: (Hex.padded 4 c.toNat).toList)
  else none

/-- The characters of a text between double quotes. So many double quotes in a row stand for
themselves, of which `run` are still allowed. -/
def escapeFrom (multiline : Bool) (allowed : Nat) : Nat → List Char → List Char
  | _, [] => []
  | run, c :: rest =>
    if c = '"' then
      match run with
      | left + 1 => c :: escapeFrom multiline allowed left rest
      | 0 => '\\' :: c :: escapeFrom multiline allowed allowed rest
    else (escape? multiline c).getD [c] ++ escapeFrom multiline allowed allowed rest

def escapeLine (cs : List Char) : List Char := escapeFrom false 0 0 cs

def escapeLines (cs : List Char) : List Char := escapeFrom true 2 2 cs

def quote (s : String) : String :=
  let cs := s.toList
  let f := TextForm.ofChars cs
  let opening := if f.lineEnd then "\n" else ""
  let lines (body : String) : String := "\"\"\"" ++ opening ++ body ++ "\"\"\""
  if !f.hidden && !f.backslash && f.doubleQuotes = 0 && !f.lineEnd then
    "\"" ++ String.ofList (escapeLine cs) ++ "\""
  else if !f.hidden && f.singleQuotes = 0 && !f.lineEnd then "'" ++ s ++ "'"
  else if !f.hidden && !f.backslash && f.doubleQuotes ≤ 2 then lines (String.ofList (escapeLines cs))
  else if !f.hidden && f.singleQuotes ≤ 2 then "'''" ++ opening ++ s ++ "'''"
  else if f.lineEnd then lines (String.ofList (escapeLines cs))
  else "\"" ++ String.ofList (escapeLine cs) ++ "\""

end Canopen.Toml
