import Canopen.Yaml.Scalar
import Canopen.Yaml.Tag
/-!
# Tokens of YAML

A text is cut into tokens. Indentation is turned into tokens that open and close block collections.
A key has no mark of its own: where a colon follows a scalar, an alias or a flow collection on the
same line, the tokens that open a mapping and mark its key are put in front of it afterwards.
-/
namespace Canopen.Yaml

inductive Token where
  | versionDirective (major minor : Nat)
  | tagDirective (handle : String) (start : Tag)
  | documentStart
  | documentEnd
  | blockSequenceStart
  | blockMappingStart
  | blockEnd
  | flowSequenceStart
  | flowSequenceEnd
  | flowMappingStart
  | flowMappingEnd
  | blockEntry
  | flowEntry
  | key
  | value
  | alias (name : String)
  | anchor (name : String)
  | tag (handle : String) (suffix : Tag)
  | scalar (style : ScalarStyle) (text : String)
  deriving DecidableEq, Repr

/-- The place where a key may have begun: the number of tokens before it and its position. -/
structure KeyPlace where
  tokensBefore : Nat
  index : Nat
  line : Nat
  column : Nat
  required : Bool
  deriving Repr

/-- The state of the cutting. `tokens` are the tokens so far, the last one first; `keys` are the
places where a key may have begun, for the flow collections around the cursor from the innermost to
the outermost; the last one belongs to the block. -/
structure Lexer where
  cursor : Cursor
  tokens : List Token := []
  count : Nat := 0
  indent : Int := -1
  indents : List Int := []
  keyAllowed : Bool := true
  keys : List (Option KeyPlace) := [none]

namespace Lexer

/-- The number of flow collections around the cursor. -/
def flowLevel (s : Lexer) : Nat := s.keys.length - 1

def inFlow (s : Lexer) : Bool := 0 < s.flowLevel

def push (s : Lexer) (t : Token) : Lexer := { s with tokens := t :: s.tokens, count := s.count + 1 }

/-- Puts tokens in front of those after the first `before` ones. -/
def insert (s : Lexer) (before : Nat) (new : List Token) : Lexer :=
  let later := s.count - before
  { s with
    tokens := s.tokens.take later ++ new.reverse ++ s.tokens.drop later
    count := s.count + new.length }

def keyPlace (s : Lexer) : Option KeyPlace := s.keys.head?.join

def setKeyPlace (s : Lexer) (k : Option KeyPlace) : Lexer := { s with keys := k :: s.keys.drop 1 }

/-- Gives up a possible key; one that has to be a key is a fault. -/
def dropKey (s : Lexer) : Except Fault Lexer :=
  if s.keyPlace.any (·.required) then .error .keyWithoutColon else .ok (s.setKeyPlace none)

/-- Holds of keys that lie on an earlier line or too far back. -/
def isStale (c : Cursor) (k : KeyPlace) : Bool := k.line < c.line || k.index + 1024 < c.index

/-- Gives up the possible keys that are no longer ones. -/
def dropStaleKeys (s : Lexer) : Except Fault Lexer :=
  if s.keys.any fun k => k.any fun k => isStale s.cursor k && k.required then
    .error .keyWithoutColon
  else .ok { s with keys := s.keys.map fun k => k.filter fun k => !isStale s.cursor k }

/-- Notes that a key may begin here. -/
def noteKey (s : Lexer) : Except Fault Lexer :=
  if s.keyAllowed then
    match s.dropKey with
    | .error e => .error e
    | .ok s =>
      .ok (s.setKeyPlace (some
        { tokensBefore := s.count
          index := s.cursor.index
          line := s.cursor.line
          column := s.cursor.column
          required := !s.inFlow && s.indent = s.cursor.column }))
  else .ok s

/-- Opens a block collection where the column is deeper than the indentation. -/
def openBlock (s : Lexer) (column before : Nat) (t : Token) : Lexer :=
  if !s.inFlow && s.indent < column then
    { s.insert before [t] with indent := column, indents := s.indent :: s.indents }
  else s

/-- Closes the block collections that are deeper than the column, given their outer
indentations. -/
def closeBlocks (column : Int) : List Int → Lexer → Lexer
  | outer :: rest, s =>
    if column < s.indent then
      closeBlocks column rest { s.push .blockEnd with indent := outer, indents := rest }
    else s
  | [], s => s

/-- Closes the block collections that end before a column. -/
def unindent (s : Lexer) (column : Int) : Lexer :=
  if s.inFlow then s else closeBlocks column s.indents s

def skip (s : Lexer) (n : Nat) : Lexer := { s with cursor := s.cursor.skip n }

/-- Drops blanks, comments and ends of line before a token. Tabs are blanks only where no key can
begin. A byte order mark at the beginning of a line takes up its first column. -/
def skipToToken : Nat → Lexer → Lexer
  | 0, s => s
  | fuel + 1, s =>
    let c := s.cursor
    let c := if c.column = 0 && c.next.any (·.toNat = 0xFEFF) then c.skip 1 else c
    let c := c.skipWhile fun ch => ch = ' ' || (ch = '\t' && (s.inFlow || !s.keyAllowed))
    let c := if c.at? '#' then c.skipWhile fun ch => !isBreak ch else c
    if c.next.any isBreak then
      skipToToken fuel { s with cursor := c.skipBreak, keyAllowed := s.keyAllowed || !s.inFlow }
    else { s with cursor := c }

def readName (c : Cursor) : Cursor × String :=
  (c.skipWhile isNameChar, String.ofList (c.rest.takeWhile isNameChar))

def readTagHandle (inDirective : Bool) (c : Cursor) : Except Fault (Cursor × String) :=
  if !c.at? '!' then .error .badTag
  else
    let (after, name) := readName (c.skip 1)
    if after.at? '!' then .ok (after.skip 1, "!" ++ name ++ "!")
    else if inDirective && name ≠ "" then .error .badTag
    else .ok (after, "!" ++ name)

/-- Holds of the characters of a tag's suffix. -/
def isTagChar (verbatim : Bool) (ch : Char) : Bool :=
  isNameChar ch || ";/?:@&=+$.!~*'()".toList.contains ch ||
    (verbatim && (ch = ',' || ch = '[' || ch = ']'))

/-- A byte that is written as an escape. -/
def readEscapedByte? : List Char → Option UInt8
  | '%' :: a :: b :: _ =>
    match Text.Hex.digitValue? a, Text.Hex.digitValue? b with
    | some a, some b => some (UInt8.ofNat (16 * a + b))
    | _, _ => none
  | _ => none

/-- So many bytes of a character after its first one, written as escapes. -/
def readEscapedTail? : Nat → List Char → Option (List UInt8)
  | 0, _ => some []
  | count + 1, cs =>
    match readEscapedByte? cs with
    | some b => if Text.Utf8.isTail b then (readEscapedTail? count (cs.drop 3)).map (b :: ·) else none
    | none => none

/-- The number of bytes that a first byte announces. -/
def announcedLength? (first : UInt8) : Option Nat :=
  if first < 0x80 then some 1
  else if 0xC0 ≤ first && first < 0xE0 then some 2
  else if 0xE0 ≤ first && first < 0xF0 then some 3
  else if 0xF0 ≤ first && first < 0xF8 then some 4
  else none

/-- The bytes that are written as escapes: a first one and as many as it announces. They need not
stand for a character. -/
def readEscapedBytes? (cs : List Char) : Option (List UInt8) :=
  match readEscapedByte? cs with
  | none => none
  | some first =>
    match announcedLength? first with
    | none => none
    | some length => (readEscapedTail? (length - 1) (cs.drop 3)).map (first :: ·)

/-- The suffix of a tag or the start of one in a directive. -/
def readTagPart (verbatim : Bool) : Nat → Cursor → List UInt8 → Except Fault (Cursor × Tag)
  | 0, c, acc => .ok (c, ⟨acc⟩)
  | fuel + 1, c, acc =>
    match c.next with
    | none => .ok (c, ⟨acc⟩)
    | some ch =>
      if ch = '%' then
        match readEscapedBytes? c.rest with
        | some bytes => readTagPart verbatim fuel (c.skip (3 * bytes.length)) (acc ++ bytes)
        | none => .error .badTag
      else if isTagChar verbatim ch then
        readTagPart verbatim fuel (c.skip 1) (acc ++ [UInt8.ofNat ch.toNat])
      else .ok (c, ⟨acc⟩)

/-- A tag: its handle and its suffix. A mark without a name stands for no particular tag. -/
def readTag (inFlow : Bool) (c : Cursor) : Except Fault (Cursor × String × Tag) :=
  let result : Except Fault (Cursor × String × Tag) :=
    if c.ahead 1 = some '<' then
      match readTagPart true c.size (c.skip 2) [] with
      | .error e => .error e
      | .ok (c, suffix) =>
        if suffix.bytes = [] || !c.at? '>' then .error .badTag
        else .ok (c.skip 1, "", suffix.beforeZero)
    else
      match readTagHandle false c with
      | .error e => .error e
      | .ok (after, handle) =>
        let isHandle := 1 < handle.length && handle.toList.getLast? = some '!'
        let head := if isHandle then [] else (Tag.ofText handle).bytes.drop 1
        match readTagPart false c.size after head with
        | .error e => .error e
        | .ok (c, suffix) =>
          if isHandle then
            if suffix.bytes = [] then .error .badTag else .ok (c, handle, suffix.beforeZero)
          else if suffix.beforeZero.bytes = [] then .ok (c, "", Tag.unspecific)
          else .ok (c, "!", suffix.beforeZero)
  match result with
  | .error e => .error e
  | .ok (c, handle, suffix) =>
    if (inFlow && c.at? ',') || isBlankOrEnd c.next then .ok (c, handle, suffix)
    else .error .badTag

def readAnchor (c : Cursor) : Except Fault (Cursor × String) :=
  let (after, name) := readName (c.skip 1)
  let ends := isBlankOrEnd after.next || after.next.any fun ch => "?:,]\x7d%@\x60".toList.contains ch
  if name = "" || !ends then .error .badAnchor else .ok (after, name)

/-- A number of at most nine digits. -/
def readVersionNumber (c : Cursor) : Except Fault (Cursor × Nat) :=
  let digits := c.rest.takeWhile Char.isDigit
  if digits = [] || 9 < digits.length then .error .badDirective
  else .ok (c.skip digits.length, digits.foldl (fun n d => n * 10 + (d.toNat - 48)) 0)

/-- The values of a directive, by its name. -/
def readDirectiveValue (name : String) (c : Cursor) : Except Fault (Cursor × Token) :=
  let c := c.skipWhile isBlank
  if name = "YAML" then
    match readVersionNumber c with
    | .error e => .error e
    | .ok (c, major) =>
      if !c.at? '.' then .error .badDirective
      else
        match readVersionNumber (c.skip 1) with
        | .error e => .error e
        | .ok (c, minor) => .ok (c, .versionDirective major minor)
  else if name = "TAG" then
    match readTagHandle true c with
    | .error _ => .error .badDirective
    | .ok (c, handle) =>
      if !c.next.any isBlank then .error .badDirective
      else
        let c := c.skipWhile isBlank
        match readTagPart true c.size c [] with
        | .error _ => .error .badDirective
        | .ok (c, start) =>
          if start.bytes = [] || !isBlankOrEnd c.next then .error .badDirective
          else .ok (c, .tagDirective handle start.beforeZero)
  else .error .badDirective

/-- A directive, up to the end of its line. -/
def readDirective (c : Cursor) : Except Fault (Cursor × Token) :=
  let (c, name) := readName (c.skip 1)
  if name = "" || !isBlankOrEnd c.next then .error .badDirective
  else
    match readDirectiveValue name c with
    | .error e => .error e
    | .ok (c, t) =>
      let c := c.skipWhile isBlank
      let c := if c.at? '#' then c.skipWhile fun ch => !isBreak ch else c
      if isBreakOrEnd c.next then .ok (c.skipBreak, t) else .error .badDirective

/-- Takes up a token that ends all block collections, such as a document marker. -/
def closeAll (s : Lexer) : Except Fault Lexer :=
  match (s.unindent (-1)).dropKey with
  | .error e => .error e
  | .ok s => .ok { s with keyAllowed := false }

/-- Takes up a token of `length` characters after which a key may or may not begin. -/
def takeMark (s : Lexer) (t : Token) (length : Nat) (keyAllowed : Bool) : Except Fault Lexer :=
  match s.dropKey with
  | .error e => .error e
  | .ok s => .ok { (s.skip length).push t with keyAllowed := keyAllowed }

/-- Opens a flow collection, which may itself be a key. -/
def openFlow (s : Lexer) (t : Token) : Except Fault Lexer :=
  match s.noteKey with
  | .error e => .error e
  | .ok s => .ok { (s.skip 1).push t with keys := none :: s.keys, keyAllowed := true }

def closeFlow (s : Lexer) (t : Token) : Except Fault Lexer :=
  match s.takeMark t 1 false with
  | .error e => .error e
  | .ok s => .ok { s with keys := if s.inFlow then s.keys.drop 1 else s.keys }

def takeBlockEntry (s : Lexer) : Except Fault Lexer :=
  if !s.inFlow && !s.keyAllowed then .error .entryNotAllowed
  else (s.openBlock s.cursor.column s.count .blockSequenceStart).takeMark .blockEntry 1 true

def takeKey (s : Lexer) : Except Fault Lexer :=
  if !s.inFlow && !s.keyAllowed then .error .keyNotAllowed
  else (s.openBlock s.cursor.column s.count .blockMappingStart).takeMark .key 1 (!s.inFlow)

def takeValue (s : Lexer) : Except Fault Lexer :=
  match s.keyPlace with
  | some k =>
    let s := s.insert k.tokensBefore [.key]
    let s := (s.openBlock k.column k.tokensBefore .blockMappingStart).setKeyPlace none
    .ok { (s.skip 1).push .value with keyAllowed := false }
  | none =>
    if !s.inFlow && !s.keyAllowed then .error .valueNotAllowed
    else
      let s := s.openBlock s.cursor.column s.count .blockMappingStart
      .ok { (s.skip 1).push .value with keyAllowed := !s.inFlow }

/-- Takes up a token with a text, which may be a key, by a reader of its text. -/
def takeText (s : Lexer) (read : Cursor → Except Fault (Cursor × Token)) : Except Fault Lexer :=
  match s.noteKey with
  | .error e => .error e
  | .ok s =>
    match read s.cursor with
    | .error e => .error e
    | .ok (c, t) => .ok { s.push t with cursor := c, keyAllowed := false }

/-- Takes up a plain scalar. A key may begin after it if it is followed by the end of a line. -/
def takePlain (s : Lexer) : Except Fault Lexer :=
  match s.noteKey with
  | .error e => .error e
  | .ok s =>
    match readPlain s.inFlow (s.indent + 1).toNat s.cursor with
    | .error e => .error e
    | .ok (c, text, broken) =>
      .ok { s.push (.scalar .plain (String.ofList text)) with cursor := c, keyAllowed := broken }

def takeBlockScalar (s : Lexer) (literal : Bool) : Except Fault Lexer :=
  match s.dropKey with
  | .error e => .error e
  | .ok s =>
    match readBlock literal s.indent s.cursor with
    | .error e => .error e
    | .ok (c, text) =>
      let style := if literal then ScalarStyle.literal else .folded
      .ok { s.push (.scalar style (String.ofList text)) with cursor := c, keyAllowed := true }

/-- Holds of the characters that a plain scalar cannot begin with unless what follows allows it. -/
def isIndicator (ch : Char) : Bool := "-?:,[]\x7b\x7d#&*!|>'\"%@\x60".toList.contains ch

/-- Takes up one token, which begins at the cursor. -/
def takeToken (s : Lexer) (ch : Char) : Except Fault Lexer :=
  let c := s.cursor
  let spaced := isBlankOrEnd (c.ahead 1)
  if c.column = 0 && ch = '%' then
    match s.closeAll with
    | .error e => .error e
    | .ok s =>
      match readDirective s.cursor with
      | .error e => .error e
      | .ok (c, t) => .ok { s.push t with cursor := c }
  else if c.atMarker '-' then s.closeAll.map fun s => (s.skip 3).push .documentStart
  else if c.atMarker '.' then s.closeAll.map fun s => (s.skip 3).push .documentEnd
  else if ch = '[' then s.openFlow .flowSequenceStart
  else if ch = '\x7b' then s.openFlow .flowMappingStart
  else if ch = ']' then s.closeFlow .flowSequenceEnd
  else if ch = '\x7d' then s.closeFlow .flowMappingEnd
  else if ch = ',' then s.takeMark .flowEntry 1 true
  else if ch = '-' && spaced then s.takeBlockEntry
  else if ch = '?' && (s.inFlow || spaced) then s.takeKey
  else if ch = ':' && (s.inFlow || spaced) then s.takeValue
  else if ch = '*' then
    s.takeText fun c => (readAnchor c).map fun (c, name) => (c, .alias name)
  else if ch = '&' then
    s.takeText fun c => (readAnchor c).map fun (c, name) => (c, .anchor name)
  else if ch = '!' then
    s.takeText fun c => (readTag s.inFlow c).map fun (c, handle, suffix) => (c, .tag handle suffix)
  else if ch = '|' && !s.inFlow then s.takeBlockScalar true
  else if ch = '>' && !s.inFlow then s.takeBlockScalar false
  else if ch = '\'' then
    s.takeText fun c => (readQuoted true c).map fun (c, text) =>
      (c, .scalar .singleQuoted (String.ofList text))
  else if ch = '"' then
    s.takeText fun c => (readQuoted false c).map fun (c, text) =>
      (c, .scalar .doubleQuoted (String.ofList text))
  else if (!isIndicator ch && !isBlank ch) || (ch = '-' && !(c.ahead 1).any isBlank) ||
      (!s.inFlow && (ch = '?' || ch = ':') && !spaced) then s.takePlain
  else .error .unexpectedCharacter

/-- Takes up all tokens. Each step but the last takes at least one character. -/
def run : Nat → Lexer → Except Fault (List Token)
  | 0, s => .ok s.tokens.reverse
  | fuel + 1, s =>
    match (s.skipToToken (s.cursor.size + 1)).dropStaleKeys with
    | .error e => .error e
    | .ok s =>
      let s := s.unindent s.cursor.column
      match s.cursor.next with
      | none => s.closeAll.map fun s => s.tokens.reverse
      | some ch =>
        match s.takeToken ch with
        | .error e => .error e
        | .ok s => run fuel s

end Lexer

def Token.ofText (text : String) : Except Fault (List Token) :=
  let cs := text.toList
  if cs.all isAllowed then Lexer.run (cs.length + 2) { cursor := { rest := cs } }
  else .error .controlCharacter

end Canopen.Yaml
