import Canopen.Text.Hex
import Canopen.Yaml.Cursor
/-!
# Scalars of YAML

The texts of plain, quoted and block scalars. Lines are folded: a single end of line inside a plain
or quoted scalar becomes a space, and of several the first is dropped.
-/
namespace Canopen.Yaml

open Canopen.Text

inductive ScalarStyle where
  | plain
  | singleQuoted
  | doubleQuoted
  | literal
  | folded
  deriving DecidableEq, Repr

/-- White space met inside a scalar: blanks of a line, or the first end of a line and those after
it. -/
structure Gap where
  blanks : List Char := []
  brokenBy : Option (List Char) := none
  moreBreaks : List Char := []
  deriving Repr

namespace Gap

def text (g : Gap) : List Char :=
  match g.brokenBy with
  | none => g.blanks
  | some ['\n'] => if g.moreBreaks = [] then [' '] else g.moreBreaks
  | some b => b ++ g.moreBreaks

/-- Holds where the gap spans the end of a line. -/
def isBroken (g : Gap) : Bool := g.brokenBy.isSome

/-- Takes up white space as far as it goes. A tab that stands in place of indentation is refused
where the indentation counts. -/
def read (indent : Option Nat) : Nat → Cursor → Gap → Except Fault (Cursor × Gap)
  | 0, c, g => .ok (c, g)
  | fuel + 1, c, g =>
    match c.next with
    | none => .ok (c, g)
    | some ch =>
      if isBlank ch then
        if g.isBroken then
          if ch = '\t' && indent.any (c.column < ·) then .error .tabIndentation
          else read indent fuel (c.skip 1) g
        else read indent fuel (c.skip 1) { g with blanks := g.blanks ++ [ch] }
      else if isBreak ch then
        if g.isBroken then
          read indent fuel c.skipBreak { g with moreBreaks := g.moreBreaks ++ c.breakText }
        else read indent fuel c.skipBreak { g with brokenBy := some c.breakText }
      else .ok (c, g)

end Gap

/-- Holds of the characters that part the entries of a flow collection. -/
def isFlowIndicator (ch : Char) : Bool :=
  ch = ',' || ch = '[' || ch = ']' || ch = '\x7b' || ch = '\x7d'

/-- The word of a plain scalar at a cursor: characters up to a blank, a colon that ends a key, or an
indicator of the flow collection around it. -/
def readWord (inFlow : Bool) : Nat → Cursor → List Char → Except Fault (Cursor × List Char)
  | 0, c, acc => .ok (c, acc)
  | fuel + 1, c, acc =>
    match c.next with
    | none => .ok (c, acc)
    | some ch =>
      if isBlank ch || isBreak ch then .ok (c, acc)
      else if inFlow && ch = ':' && (c.ahead 1).any (fun n => isFlowIndicator n || n = '?') then
        .error .unexpectedColon
      else if (ch = ':' && isBlankOrEnd (c.ahead 1)) || (inFlow && isFlowIndicator ch) then
        .ok (c, acc)
      else readWord inFlow fuel (c.skip 1) (ch :: acc)

/-- The lines of a plain scalar. `acc` is its text so far in reverse, `gap` the white space read
after it. Gives the text and whether the scalar is followed by the end of a line. -/
def readPlainFrom (inFlow : Bool) (indent : Nat) :
    Nat → Cursor → Gap → List Char → Except Fault (Cursor × List Char × Bool)
  | 0, c, gap, acc => .ok (c, acc.reverse, gap.isBroken)
  | fuel + 1, c, gap, acc =>
    if c.atAnyMarker || c.at? '#' then .ok (c, acc.reverse, gap.isBroken)
    else
      match readWord inFlow c.size c [] with
      | .error e => .error e
      | .ok (after, word) =>
        let acc := if word = [] then acc else word ++ gap.text.reverse ++ acc
        let gap := if word = [] then gap else {}
        match after.next with
        | none => .ok (after, acc.reverse, gap.isBroken)
        | some ch =>
          if isBlank ch || isBreak ch then
            match Gap.read (some indent) after.size after gap with
            | .error e => .error e
            | .ok (c, gap) =>
              if !inFlow && c.column < indent then .ok (c, acc.reverse, gap.isBroken)
              else readPlainFrom inFlow indent fuel c gap acc
          else .ok (after, acc.reverse, gap.isBroken)

def readPlain (inFlow : Bool) (indent : Nat) (c : Cursor) :
    Except Fault (Cursor × List Char × Bool) :=
  readPlainFrom inFlow indent (c.size + 1) c {} []

def escaped? (ch : Char) : Option Char :=
  match ch with
  | '0' => some (Char.ofNat 0x00)
  | 'a' => some (Char.ofNat 0x07)
  | 'b' => some (Char.ofNat 0x08)
  | 't' | '\t' => some '\t'
  | 'n' => some '\n'
  | 'v' => some (Char.ofNat 0x0B)
  | 'f' => some (Char.ofNat 0x0C)
  | 'r' => some '\r'
  | 'e' => some (Char.ofNat 0x1B)
  | ' ' => some ' '
  | '"' => some '"'
  | '/' => some '/'
  | '\\' => some '\\'
  | 'N' => some (Char.ofNat 0x85)
  | '_' => some (Char.ofNat 0xA0)
  | 'L' => some (Char.ofNat 0x2028)
  | 'P' => some (Char.ofNat 0x2029)
  | _ => none

/-- The number of digits after the letter of a numeric escape. -/
def escapeDigits? (ch : Char) : Option Nat :=
  match ch with
  | 'x' => some 2
  | 'u' => some 4
  | 'U' => some 8
  | _ => none

/-- The character of so many digits in base sixteen. -/
def readCodePoint? (count : Nat) (cs : List Char) : Option Char :=
  let digits := cs.take count
  if digits.length < count then none
  else
    match digits.mapM Hex.digitValue? with
    | none => none
    | some ds =>
      let n := ds.foldl (fun n d => n * 16 + d) 0
      if (0xD800 ≤ n && n ≤ 0xDFFF) || 0x10FFFF < n then none else some (Char.ofNat n)

/-- The characters of a quoted scalar up to white space or the closing quote, in reverse, and
whether they end in an escaped end of line. -/
def readQuotedWord (single : Bool) :
    Nat → Cursor → List Char → Except Fault (Cursor × List Char × Bool)
  | 0, c, acc => .ok (c, acc, false)
  | fuel + 1, c, acc =>
    match c.next with
    | none => .ok (c, acc, false)
    | some ch =>
      if isBlank ch || isBreak ch then .ok (c, acc, false)
      else if single then
        if ch = '\'' then
          if c.ahead 1 = some '\'' then readQuotedWord single fuel (c.skip 2) ('\'' :: acc)
          else .ok (c, acc, false)
        else readQuotedWord single fuel (c.skip 1) (ch :: acc)
      else if ch = '"' then .ok (c, acc, false)
      else if ch = '\\' then
        match c.ahead 1 with
        | none => .error .badEscape
        | some e =>
          if isBreak e then .ok ((c.skip 1).skipBreak, acc, true)
          else
            match escaped? e with
            | some x => readQuotedWord single fuel (c.skip 2) (x :: acc)
            | none =>
              match escapeDigits? e with
              | none => .error .badEscape
              | some count =>
                match readCodePoint? count (c.rest.drop 2) with
                | some x => readQuotedWord single fuel (c.skip (2 + count)) (x :: acc)
                | none => .error .badEscape
      else readQuotedWord single fuel (c.skip 1) (ch :: acc)

/-- The lines of a quoted scalar, of which the opening quote has been read. -/
def readQuotedFrom (single : Bool) :
    Nat → Cursor → List Char → Except Fault (Cursor × List Char)
  | 0, _, _ => .error .endInScalar
  | fuel + 1, c, acc =>
    if c.atAnyMarker then .error .documentMarkerInScalar
    else if c.next = none then .error .endInScalar
    else
      match readQuotedWord single c.size c acc with
      | .error e => .error e
      | .ok (c, acc, brokenOff) =>
        if !brokenOff && c.at? (if single then '\'' else '"') then .ok (c.skip 1, acc.reverse)
        else
          let gap : Gap := if brokenOff then { brokenBy := some [] } else {}
          match Gap.read none c.size c gap with
          | .error e => .error e
          | .ok (c, gap) => readQuotedFrom single fuel c (gap.text.reverse ++ acc)

def readQuoted (single : Bool) (c : Cursor) : Except Fault (Cursor × List Char) :=
  readQuotedFrom single (c.size + 1) (c.skip 1) []

/-- What a block scalar keeps of the ends of line after it. -/
inductive Chomping where
  | strip
  | clip
  | keep
  deriving DecidableEq, Repr

def readChomping (c : Cursor) : Cursor × Option Chomping :=
  if c.at? '+' then (c.skip 1, some .keep)
  else if c.at? '-' then (c.skip 1, some .strip)
  else (c, none)

def readIncrement (c : Cursor) : Except Fault (Cursor × Option Nat) :=
  match c.next with
  | some ch =>
    if ch = '0' then .error .badBlockScalar
    else if ch.isDigit then .ok (c.skip 1, some (ch.toNat - 48))
    else .ok (c, none)
  | none => .ok (c, none)

/-- The marks at the head of a block scalar, in either order. -/
def readBlockHead (c : Cursor) : Except Fault (Cursor × Chomping × Option Nat) :=
  match readChomping c with
  | (c, some chomping) =>
    match readIncrement c with
    | .ok (c, increment) => .ok (c, chomping, increment)
    | .error e => .error e
  | (c, none) =>
    match readIncrement c with
    | .error e => .error e
    | .ok (c, none) => .ok (c, .clip, none)
    | .ok (c, some increment) =>
      let (c, chomping) := readChomping c
      .ok (c, chomping.getD .clip, some increment)

/-- Indentation and empty lines of a block scalar. `indent` is its indentation where that is known,
`widest` the widest indentation met. Gives the ends of line. -/
def readBlockBreaks (indent : Option Nat) :
    Nat → Cursor → Nat → List Char → Except Fault (Cursor × Nat × List Char)
  | 0, c, widest, breaks => .ok (c, widest, breaks)
  | fuel + 1, c, widest, breaks =>
    let room := (c.rest.takeWhile (· = ' ')).length
    let c := c.skip (match indent with
      | none => room
      | some n => min room (n - c.column))
    let widest := max widest c.column
    let inside := indent.all (c.column < ·)
    if inside && c.at? '\t' then .error .tabIndentation
    else
      match c.next with
      | some ch =>
        if isBreak ch then
          readBlockBreaks indent fuel c.skipBreak widest (breaks ++ c.breakText)
        else .ok (c, widest, breaks)
      | none => .ok (c, widest, breaks)

/-- The lines of a block scalar. `acc` is its text so far in reverse, `lastBreak` the end of the line
before, `breaks` the ends of empty lines after that, `wasBlank` whether that line began with a blank. -/
def readBlockLines (literal : Bool) (indent : Nat) :
    Nat → Cursor → (acc lastBreak breaks : List Char) → Bool →
      Except Fault (Cursor × List Char × List Char × List Char)
  | 0, c, acc, lastBreak, breaks, _ => .ok (c, acc, lastBreak, breaks)
  | fuel + 1, c, acc, lastBreak, breaks, wasBlank =>
    match c.next with
    | none => .ok (c, acc, lastBreak, breaks)
    | some ch =>
      if c.column ≠ indent then .ok (c, acc, lastBreak, breaks)
      else
        let startsBlank := isBlank ch
        let joint :=
          if !literal && lastBreak = ['\n'] && !wasBlank && !startsBlank then
            if breaks = [] then [' '] else []
          else lastBreak
        let line := c.rest.takeWhile fun ch => !isBreak ch
        let c := c.skip line.length
        match readBlockBreaks (some indent) (c.size + 1) c.skipBreak 0 [] with
        | .error e => .error e
        | .ok (after, _, moreBreaks) =>
          readBlockLines literal indent fuel after
            (line.reverseAux (breaks.reverseAux (joint.reverseAux acc))) c.breakText moreBreaks
            startsBlank

/-- A block scalar inside a node of the given indentation, which is -1 at the top. -/
def readBlock (literal : Bool) (parent : Int) (c : Cursor) : Except Fault (Cursor × List Char) :=
  match readBlockHead (c.skip 1) with
  | .error e => .error e
  | .ok (c, chomping, increment) =>
    let c := c.skipWhile isBlank
    let c := if c.at? '#' then c.skipWhile fun ch => !isBreak ch else c
    if !isBreakOrEnd c.next then .error .badBlockScalar
    else
      let c := c.skipBreak
      let given : Option Nat := increment.map fun n => (if 0 ≤ parent then parent.toNat else 0) + n
      match readBlockBreaks given (c.size + 1) c 0 [] with
      | .error e => .error e
      | .ok (c, widest, breaks) =>
        let indent := given.getD (max (max widest (parent + 1).toNat) 1)
        match readBlockLines literal indent (c.size + 1) c [] [] breaks false with
        | .error e => .error e
        | .ok (c, acc, lastBreak, breaks) =>
          let ending :=
            match chomping with
            | .strip => []
            | .clip => lastBreak
            | .keep => lastBreak ++ breaks
          .ok (c, acc.reverse ++ ending)

end Canopen.Yaml
