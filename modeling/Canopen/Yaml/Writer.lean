import Canopen.Document
import Canopen.Yaml.Reading
/-!
# Writing YAML

The text of a tree in block style: records and sequences take a line for each part, sequences inside
records are not indented, and a text is quoted only where its characters would be read as something
else. A text of several lines becomes a literal block. Lines are never folded.
-/
namespace Canopen.Yaml

open Canopen.Text

/-- What the characters of a text allow. -/
structure Analysis where
  multiline : Bool
  plainAllowed : Bool
  singleQuotedAllowed : Bool
  blockAllowed : Bool
  deriving DecidableEq, Repr

/-- Holds of the characters that need no escape. Tabs, carriage returns and the byte order mark do. -/
def isPrintable (ch : Char) : Bool :=
  let n := ch.toNat
  n = 0x0A || (0x20 ≤ n && n ≤ 0x7E) || (0xA0 ≤ n && n ≤ 0xD7FF) ||
    (0xE000 ≤ n && n ≤ 0xFFFD && n ≠ 0xFEFF) || 0x10000 ≤ n

/-- Holds of the characters that a plain text cannot begin with. -/
def isStartIndicator (ch : Char) : Bool := "#,[]\x7b\x7d&*!|>'\"%@\x60".toList.contains ch

/-- Holds of a character that keeps a text from being plain at its place: `before` is the character
in front of it, `after` the one behind it. -/
def hindersPlain (before : Option Char) (ch : Char) (after : Option Char) : Bool :=
  match before with
  | none =>
    isStartIndicator ch || ((ch = '?' || ch = ':' || ch = '-') && isBlankOrEnd after)
  | some b =>
    (ch = ':' && isBlankOrEnd after) || (ch = '#' && isBlankOrEnd (some b))

/-- Holds where a character hinders a plain text, given the character before the rest. -/
def anyHinders : Option Char → List Char → Bool
  | _, [] => false
  | before, ch :: rest => hindersPlain before ch rest.head? || anyHinders (some ch) rest

/-- Holds where a character of the first class is followed by one of the second. -/
def adjacent (p q : Char → Bool) : List Char → Bool
  | a :: b :: rest => (p a && q b) || adjacent p q (b :: rest)
  | _ => false

def analyse (cs : List Char) : Analysis :=
  if cs = [] then ⟨false, true, true, false⟩
  else
    let isSpace (ch : Char) : Bool := ch = ' '
    let marker := ['-', '-', '-'].isPrefixOf cs || ['.', '.', '.'].isPrefixOf cs
    let edges := [cs.head?, cs.getLast?].any fun ch => ch.any fun ch => isSpace ch || isBreak ch
    let breakSpace := adjacent isBreak isSpace cs
    let spaceBreak := adjacent isSpace isBreak cs
    let special := cs.any fun ch => !isPrintable ch
    let multiline := cs.any isBreak
    { multiline
      plainAllowed :=
        !(marker || edges || breakSpace || spaceBreak || special || multiline ||
          anyHinders none cs)
      singleQuotedAllowed := !(breakSpace || spaceBreak || special)
      blockAllowed := !(cs.getLast? = some ' ' || spaceBreak || special) }

/-- The style a text asks for: literal for several lines, quoted if it would be read as something
else than a text, plain otherwise. -/
def wantedStyle (s : String) : ScalarStyle :=
  if s.toList.contains '\n' then .literal
  else if Plain.ofText s ≠ .text || isPaddedDigits s.toList then .singleQuoted
  else .plain

/-- The style a text gets. -/
def chosenStyle (s : String) : ScalarStyle :=
  let a := analyse s.toList
  match wantedStyle s with
  | .literal => if a.blockAllowed then .literal else .doubleQuoted
  | .plain =>
    if a.plainAllowed then .plain
    else if a.singleQuotedAllowed then .singleQuoted else .doubleQuoted
  | _ => if a.singleQuotedAllowed then .singleQuoted else .doubleQuoted

def spaces (n : Nat) : List Char := List.replicate n ' '

/-- Lines with the given indentation in front of each that has characters. `fresh` tells whether a
line begins. -/
def indentLines (indent : Nat) (double : Char → List Char) : Bool → List Char → List Char
  | _, [] => []
  | fresh, ch :: rest =>
    if isBreak ch then ch :: indentLines indent double true rest
    else
      (if fresh then spaces indent else []) ++ double ch ++ indentLines indent double false rest

/-- A text in single quotes, which are doubled inside it. -/
def singleQuoted (indent : Nat) (cs : List Char) : List Char :=
  let body := indentLines indent (fun ch => if ch = '\'' then ['\'', '\''] else [ch]) false cs
  let ending := if cs.getLast?.any isBreak then spaces indent else []
  '\'' :: body ++ ending ++ ['\'']

def escapeLetter? (n : Nat) : Option Char :=
  match n with
  | 0x00 => some '0'
  | 0x07 => some 'a'
  | 0x08 => some 'b'
  | 0x09 => some 't'
  | 0x0A => some 'n'
  | 0x0B => some 'v'
  | 0x0C => some 'f'
  | 0x0D => some 'r'
  | 0x1B => some 'e'
  | 0x22 => some '"'
  | 0x5C => some '\\'
  | 0x85 => some 'N'
  | 0xA0 => some '_'
  | 0x2028 => some 'L'
  | 0x2029 => some 'P'
  | _ => none

/-- A character in double quotes. -/
def escapeChar (ch : Char) : List Char :=
  let n := ch.toNat
  if isPrintable ch && !isBreak ch && ch ≠ '"' && ch ≠ '\\' then [ch]
  else
    match escapeLetter? n with
    | some letter => ['\\', letter]
    | none =>
      if n ≤ 0xFF then '\\' :: 'x' :: (Hex.padded 2 n).toList
      else if n ≤ 0xFFFF then '\\' :: 'u' :: (Hex.padded 4 n).toList
      else '\\' :: 'U' :: (Hex.padded 8 n).toList

def doubleQuoted (cs : List Char) : List Char := '"' :: cs.flatMap escapeChar ++ ['"']

/-- The marks at the head of a literal block: the indentation, if the text begins with white space,
and what becomes of the ends of line after it. -/
def literalHints (cs : List Char) : List Char :=
  let indentation :=
    match cs with
    | ch :: _ => if ch = ' ' || isBreak ch then ['2'] else []
    | [] => []
  let chomping :=
    match cs.reverse with
    | [] => ['-']
    | [last] => if isBreak last then ['+'] else ['-']
    | last :: before :: _ =>
      if !isBreak last then ['-'] else if isBreak before then ['+'] else []
  indentation ++ chomping

/-- A text of several lines as a literal block. -/
def literalBlock (indent : Nat) (cs : List Char) : List Char :=
  '|' :: literalHints cs ++ '\n' :: indentLines indent (fun ch => [ch]) true cs

/-- A text, which ends with the line, in lines of the given indentation. -/
def scalarLines (indent : Nat) (s : String) : List Char :=
  let cs := s.toList
  match chosenStyle s with
  | .literal =>
    let block := literalBlock indent cs
    if block.getLast?.any isBreak then block else block ++ ['\n']
  | .plain => cs ++ ['\n']
  | .singleQuoted => singleQuoted indent cs ++ ['\n']
  | _ => doubleQuoted cs ++ ['\n']

mutual

/-- The lines of a tree after the mark of the sequence entry it is. -/
def entryLines (indent : Nat) : Data → List Char
  | .natural n => ' ' :: Nat.toDigits 10 n ++ ['\n']
  | .text s => ' ' :: scalarLines (indent + 2) s
  | .items [] => " []\n".toList
  | .items items => ' ' :: (itemLines (indent + 2) items).drop (indent + 2)
  | .record [] => " \x7b\x7d\n".toList
  | .record parts => ' ' :: (partLines (indent + 2) parts).drop (indent + 2)
  | .numbered [] => " \x7b\x7d\n".toList
  | .numbered parts => ' ' :: (numberedLines (indent + 2) parts).drop (indent + 2)

/-- The lines of a tree after the colon of the part it is. -/
def valueLines (indent : Nat) : Data → List Char
  | .natural n => ' ' :: Nat.toDigits 10 n ++ ['\n']
  | .text s => ' ' :: scalarLines (indent + 2) s
  | .items [] => " []\n".toList
  | .items items => '\n' :: itemLines indent items
  | .record [] => " \x7b\x7d\n".toList
  | .record parts => '\n' :: partLines (indent + 2) parts
  | .numbered [] => " \x7b\x7d\n".toList
  | .numbered parts => '\n' :: numberedLines (indent + 2) parts

def itemLines (indent : Nat) : List Data → List Char
  | [] => []
  | d :: rest => spaces indent ++ '-' :: entryLines indent d ++ itemLines indent rest

def partLines (indent : Nat) : List (String × Data) → List Char
  | [] => []
  | (name, d) :: rest =>
    spaces indent ++ name.toList ++ ':' :: valueLines indent d ++ partLines indent rest

def numberedLines (indent : Nat) : List (Nat × Data) → List Char
  | [] => []
  | (n, d) :: rest =>
    spaces indent ++ Nat.toDigits 10 n ++ ':' :: valueLines indent d ++ numberedLines indent rest

end

def write : Data → String
  | .record [] | .numbered [] => "\x7b\x7d\n"
  | .items [] => "[]\n"
  | .record parts => String.ofList (partLines 0 parts)
  | .numbered parts => String.ofList (numberedLines 0 parts)
  | .items items => String.ofList (itemLines 0 items)
  | .natural n => toString n ++ "\n"
  | .text s => String.ofList (scalarLines 0 s)

end Canopen.Yaml
