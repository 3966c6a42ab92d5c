/-!
# Places in a YAML text

A cursor is the rest of a text together with its place: the number of characters before it, the line
and the column. The classes of characters that the grammar tells apart stand here too.
-/
namespace Canopen.Yaml

inductive Fault where
  | controlCharacter
  | keyWithoutColon
  | unexpectedCharacter
  | entryNotAllowed
  | keyNotAllowed
  | valueNotAllowed
  | badDirective
  | badAnchor
  | badTag
  | badBlockScalar
  | tabIndentation
  | documentMarkerInScalar
  | endInScalar
  | badEscape
  | unexpectedColon
  | unexpectedToken
  | undefinedTagHandle
  | undefinedAnchor
  | moreThanOneDocument
  | wrongShape
  deriving DecidableEq, Repr

def Fault.message : Fault → String
  | .controlCharacter => "control characters are not allowed"
  | .keyWithoutColon => "a colon is missing after a key"
  | .unexpectedCharacter => "no token begins with this character"
  | .entryNotAllowed => "a sequence entry is not allowed here"
  | .keyNotAllowed => "a mapping key is not allowed here"
  | .valueNotAllowed => "a mapping value is not allowed here"
  | .badDirective => "a directive is not well-formed"
  | .badAnchor => "an anchor is not well-formed"
  | .badTag => "a tag is not well-formed"
  | .badBlockScalar => "the head of a block scalar is not well-formed"
  | .tabIndentation => "a tab stands in place of indentation"
  | .documentMarkerInScalar => "a document marker stands in a quoted scalar"
  | .endInScalar => "the text ends in a quoted scalar"
  | .badEscape => "an escape is not known"
  | .unexpectedColon => "a colon is not allowed here"
  | .unexpectedToken => "a token is not allowed here"
  | .undefinedTagHandle => "a tag handle is not defined"
  | .undefinedAnchor => "an anchor is not defined"
  | .moreThanOneDocument => "the text holds more than one document"
  | .wrongShape => "the document does not have the expected parts"

structure Cursor where
  rest : List Char
  size : Nat := rest.length
  index : Nat := 0
  line : Nat := 0
  column : Nat := 0
  deriving Repr

def isBreak (c : Char) : Bool :=
  c = '\n' || c = '\r' || c.toNat = 0x85 || c.toNat = 0x2028 || c.toNat = 0x2029

/-- Holds of the characters that part words in a line. -/
def isBlank (c : Char) : Bool := c = ' ' || c = '\t'

/-- Holds of a blank, of the end of a line and of the end of the text. -/
def isBlankOrEnd : Option Char → Bool
  | none => true
  | some c => isBlank c || isBreak c

/-- Holds of the end of a line and of the end of the text. -/
def isBreakOrEnd : Option Char → Bool
  | none => true
  | some c => isBreak c

def isNameChar (c : Char) : Bool := c.isAlphanum || c = '_' || c = '-'

def isAllowed (c : Char) : Bool :=
  let n := c.toNat
  n = 9 || n = 10 || n = 13 || (0x20 ≤ n && n ≤ 0x7E) || n = 0x85 || (0xA0 ≤ n && n ≤ 0xD7FF) ||
    (0xE000 ≤ n && n ≤ 0xFFFD) || 0x10000 ≤ n

namespace Cursor

def ahead (c : Cursor) (n : Nat) : Option Char := c.rest[n]?

def next (c : Cursor) : Option Char := c.rest.head?

/-- Holds where the text goes on with the given character. -/
def at? (c : Cursor) (ch : Char) : Bool := c.next = some ch

/-- The place after `n` characters of the same line. -/
def skip (c : Cursor) (n : Nat) : Cursor :=
  { c with
    rest := c.rest.drop n
    size := c.size - n
    index := c.index + n
    column := c.column + n }

/-- The place after the end of the line, which may consist of two characters. -/
def skipBreak (c : Cursor) : Cursor :=
  match c.rest with
  | '\r' :: '\n' :: rest => ⟨rest, c.size - 2, c.index + 2, c.line + 1, 0⟩
  | _ :: rest => ⟨rest, c.size - 1, c.index + 1, c.line + 1, 0⟩
  | [] => c

/-- The end of a line as it is kept in a scalar. -/
def breakText (c : Cursor) : List Char :=
  match c.rest with
  | ch :: _ => if ch.toNat = 0x2028 || ch.toNat = 0x2029 then [ch] else ['\n']
  | [] => []

/-- The place after the characters of a class, in one line. -/
def skipWhile (c : Cursor) (p : Char → Bool) : Cursor := c.skip (c.rest.takeWhile p).length

/-- Holds at the beginning of a line that has a document marker. -/
def atMarker (c : Cursor) (mark : Char) : Bool :=
  c.column = 0 && c.ahead 0 = some mark && c.ahead 1 = some mark && c.ahead 2 = some mark &&
    isBlankOrEnd (c.ahead 3)

/-- Holds at the beginning of a line that has either document marker. -/
def atAnyMarker (c : Cursor) : Bool := c.atMarker '-' || c.atMarker '.'

end Cursor

end Canopen.Yaml
