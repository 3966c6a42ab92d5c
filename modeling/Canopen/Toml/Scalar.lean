import Canopen.Number.Decimal
import Canopen.Toml.Table
/-!
# Scalars of TOML

Keys, texts, numbers and times. Each reader gives what it read and the rest of the text.
-/
namespace Canopen.Toml

open Canopen.Number Canopen.Text

def skipBlanks (cs : List Char) : List Char := cs.dropWhile fun c => c = ' ' || c = '\t'

/-- Holds of the characters of comments and of texts in one line: not of control characters. -/
def isPrintable (c : Char) : Bool := c = '\t' || (0x20 ≤ c.toNat && c.toNat ≠ 0x7F)

def readNewline? : List Char → Option (List Char)
  | '\n' :: rest => some rest
  | '\r' :: '\n' :: rest => some rest
  | _ => none

def skipComment : List Char → List Char
  | '#' :: rest => rest.dropWhile isPrintable
  | cs => cs

/-- The rest after blanks, a comment and the end of the line or of the text. -/
def endLine? (cs : List Char) : Option (List Char) :=
  match skipComment (skipBlanks cs) with
  | [] => some []
  | rest => readNewline? rest

/-- The character of a numeric escape of so many digits. -/
def readCodePoint? (count : Nat) (cs : List Char) : Option (Char × List Char) :=
  let digits := cs.take count
  if digits.length < count then none
  else
    match readDigits? 16 digits with
    | some n => if n.isValidChar then some (Char.ofNat n, cs.drop count) else none
    | none => none

/-- The character of an escape, of which the backslash has been read. -/
def readEscape? : List Char → Option (Char × List Char)
  | 'b' :: rest => some (Char.ofNat 8, rest)
  | 't' :: rest => some ('\t', rest)
  | 'n' :: rest => some ('\n', rest)
  | 'f' :: rest => some (Char.ofNat 12, rest)
  | 'r' :: rest => some ('\r', rest)
  | '"' :: rest => some ('"', rest)
  | '\\' :: rest => some ('\\', rest)
  | 'u' :: rest => readCodePoint? 4 rest
  | 'U' :: rest => readCodePoint? 8 rest
  | _ => none

/-- The characters up to a double quote, of which those read are given in reverse. -/
def readBasic : Nat → List Char → List Char → Option (List Char × List Char)
  | 0, _, _ => none
  | fuel + 1, acc, cs =>
    match cs with
    | [] => none
    | '"' :: rest => some (acc, rest)
    | '\\' :: rest =>
      match readEscape? rest with
      | some (c, rest) => readBasic fuel (c :: acc) rest
      | none => none
    | c :: rest => if isPrintable c then readBasic fuel (c :: acc) rest else none

def readLiteral (cs : List Char) : Option (List Char × List Char) :=
  let text := cs.takeWhile fun c => isPrintable c && c ≠ '\''
  match cs.drop text.length with
  | '\'' :: rest => some (text.reverse, rest)
  | _ => none

/-- The rest after quotes that end a text of several lines: three of them, before which up to two
more belong to the text. -/
def closeQuotes? (quote : Char) (acc : List Char) (cs : List Char) :
    Option (List Char × List Char) :=
  let count := (cs.takeWhile (· == quote)).length
  if count < 3 then none
  else
    let kept := min (count - 3) 2
    some (List.replicate kept quote ++ acc, cs.drop (kept + 3))

/-- The rest after a backslash at the end of a line: the blanks and lines that it takes away. -/
def continueLine? (cs : List Char) : Option (List Char) :=
  (readNewline? (skipBlanks cs)).map fun rest =>
    let isSkipped (c : Char) : Bool := c = ' ' || c = '\t' || c = '\n'
    let rec skip : List Char → List Char
      | '\r' :: '\n' :: rest => skip rest
      | c :: rest => if isSkipped c then skip rest else c :: rest
      | [] => []
    skip rest

/-- The characters of a text of several lines; `escapes` tells whether a backslash is special. -/
def readLines (quote : Char) (escapes : Bool) :
    Nat → List Char → List Char → Option (List Char × List Char)
  | 0, _, _ => none
  | fuel + 1, acc, cs =>
    match cs with
    | [] => none
    | '\r' :: '\n' :: rest => readLines quote escapes fuel ('\n' :: acc) rest
    | '\n' :: rest => readLines quote escapes fuel ('\n' :: acc) rest
    | c :: rest =>
      if c = quote then
        match closeQuotes? quote acc cs with
        | some result => some result
        | none => readLines quote escapes fuel (c :: acc) rest
      else if c = '\\' && escapes then
        match continueLine? rest with
        | some rest => readLines quote escapes fuel acc rest
        | none =>
          match readEscape? rest with
          | some (c, rest) => readLines quote escapes fuel (c :: acc) rest
          | none => none
      else if isPrintable c then readLines quote escapes fuel (c :: acc) rest
      else none

/-- The line end right after the opening quotes is no part of a text of several lines. -/
def dropFirstNewline (cs : List Char) : List Char := (readNewline? cs).getD cs

def readLineText? : List Char → Option (String × List Char)
  | '"' :: rest =>
    (readBasic (rest.length + 1) [] rest).map fun (acc, rest) => (String.ofList acc.reverse, rest)
  | '\'' :: rest => (readLiteral rest).map fun (acc, rest) => (String.ofList acc.reverse, rest)
  | _ => none

def readText? (cs : List Char) : Option (String × List Char) :=
  let finish (r : Option (List Char × List Char)) : Option (String × List Char) :=
    r.map fun (acc, rest) => (String.ofList acc.reverse, rest)
  match cs with
  | '"' :: '"' :: '"' :: rest =>
    finish (readLines '"' true (rest.length + 1) [] (dropFirstNewline rest))
  | '\'' :: '\'' :: '\'' :: rest =>
    finish (readLines '\'' false (rest.length + 1) [] (dropFirstNewline rest))
  | _ => readLineText? cs

/-- Holds of the characters of keys without quotes. -/
def isBare (c : Char) : Bool := c.isAlphanum || c = '_' || c = '-'

def readSimpleKey? (cs : List Char) : Option (String × List Char) :=
  match cs with
  | '"' :: _ | '\'' :: _ => readLineText? cs
  | _ =>
    let name := cs.takeWhile isBare
    if name.isEmpty then none else some (String.ofList name, cs.drop name.length)

/-- The greatest depth of values within one another, and of tables along a key. -/
def maxDepth : Nat := 80

/-- The parts of a key of any length, parted by dots; blanks are allowed around each. -/
def readKeyParts? : Nat → List Char → Option (List String × List Char)
  | 0, _ => none
  | fuel + 1, cs =>
    match readSimpleKey? (skipBlanks cs) with
    | none => none
    | some (name, rest) =>
      match skipBlanks rest with
      | '.' :: rest => (readKeyParts? fuel rest).map fun (names, rest) => (name :: names, rest)
      | rest => some ([name], rest)

/-- The parts of a key, of which there are fewer than the greatest depth. -/
def readKey? (cs : List Char) : Option (List String × List Char) :=
  (readKeyParts? (cs.length + 1) cs).filter fun (names, _) => names.length < maxDepth

def splitKey : List String → List String × String
  | [] => ([], "")
  | [name] => ([], name)
  | name :: rest => let (path, last) := splitKey rest; (name :: path, last)

/-- Digits of a base, which can go on after an underscore; `inside` tells whether a digit stands in
front. -/
def readRun (base : Nat) : Bool → List Char → List Char × List Char
  | _, [] => ([], [])
  | inside, c :: rest =>
    if (digitValue? base c).isSome then
      let (digits, rest) := readRun base true rest
      (c :: digits, rest)
    else if inside && c = '_' && rest.head?.any fun d => (digitValue? base d).isSome then
      readRun base false rest
    else ([], c :: rest)

/-- Digits of a base, with single underscores between them. -/
def readGrouped (base : Nat) (cs : List Char) : List Char × List Char := readRun base false cs

/-- Digits of a decimal whole number; only zero itself begins with a zero. -/
def readWhole (cs : List Char) : List Char × List Char :=
  match cs with
  | '0' :: rest => (['0'], rest)
  | _ => readGrouped 10 cs

def readSign : List Char → List Char × List Char
  | '+' :: rest => ([], rest)
  | '-' :: rest => (['-'], rest)
  | cs => ([], cs)

def intOf? (v : Int) : Option Toml := if -(2 ^ 63) ≤ v && v < 2 ^ 63 then some (.int v) else none

def readBased? (base : Nat) (cs : List Char) : Option (Toml × List Char) :=
  let (digits, rest) := readGrouped base cs
  match (readDigits? base digits).bind fun n => intOf? n with
  | some v => some (v, rest)
  | none => none

/-- The exponent of a number, with its letter. -/
def readExponent (cs : List Char) : Option (List Char × List Char) :=
  match cs with
  | e :: rest =>
    if e = 'e' || e = 'E' then
      let (sign, rest) := readSign rest
      match readGrouped 10 rest with
      | ([], _) => none
      | (digits, rest) => some ('e' :: sign ++ digits, rest)
    else none
  | [] => none

/-- A floating-point number from its characters. One that is too large is refused. -/
def floatOf? (cs : List Char) : Option Toml :=
  match Format.double.read cs with
  | .ok pattern =>
    if pattern = Format.double.infinity then none else some (.float ⟨UInt64.ofNat pattern⟩)
  | .error _ => none

/-- A decimal number after its sign. -/
def readDecimal? (sign : List Char) (cs : List Char) : Option (Toml × List Char) :=
  match readWhole cs with
  | ([], _) => none
  | (whole, rest) =>
    let withExponent (digits rest : List Char) : Option (Toml × List Char) :=
      match readExponent rest with
      | some (exponent, rest) => (floatOf? (sign ++ digits ++ exponent)).map fun v => (v, rest)
      | none => (floatOf? (sign ++ digits)).map fun v => (v, rest)
    let integer : Option (Toml × List Char) :=
      ((readInteger? (sign ++ whole)).bind intOf?).map fun v => (v, rest)
    match rest with
    | '.' :: tail =>
      match readGrouped 10 tail with
      | ([], _) => none
      | (fraction, rest) => withExponent (whole ++ '.' :: fraction) rest
    | e :: _ => if e = 'e' || e = 'E' then withExponent whole rest else integer
    | [] => integer

def readUnsigned? : List Char → Option (Toml × List Char)
  | '0' :: 'x' :: rest => readBased? 16 rest
  | '0' :: 'o' :: rest => readBased? 8 rest
  | '0' :: 'b' :: rest => readBased? 2 rest
  | cs => readDecimal? [] cs

/-- The names of infinity and of a not-a-number after a sign. -/
def readNamedFloat? (sign : Nat) : List Char → Option (Toml × List Char)
  | 'i' :: 'n' :: 'f' :: rest => some (.float ⟨UInt64.ofNat (sign + Format.double.infinity)⟩, rest)
  | 'n' :: 'a' :: 'n' :: rest =>
    some (.float ⟨UInt64.ofNat (sign + Format.double.infinity + Format.double.quietBit)⟩, rest)
  | _ => none

/-- So many digits as a number. -/
def readFixed? (count : Nat) (cs : List Char) : Option (Nat × List Char) :=
  if (cs.take count).length = count && (cs.take count).all Char.isDigit then
    (readDigits? 10 (cs.take count)).map fun n => (n, cs.drop count)
  else none

def daysOfMonth (year month : Nat) : Nat :=
  if month = 2 then
    if year % 4 = 0 && (year % 100 ≠ 0 || year % 400 = 0) then 29 else 28
  else if [4, 6, 9, 11].contains month then 30
  else 31

def skipDate? (cs : List Char) : Option (List Char) :=
  match readFixed? 4 cs with
  | some (year, '-' :: cs) =>
    match readFixed? 2 cs with
    | some (month, '-' :: cs) =>
      match readFixed? 2 cs with
      | some (day, rest) =>
        if 1 ≤ month && month ≤ 12 && 1 ≤ day && day ≤ daysOfMonth year month then some rest
        else none
      | none => none
    | _ => none
  | _ => none

def skipFraction (cs : List Char) : List Char :=
  match cs with
  | '.' :: tail => if (tail.takeWhile Char.isDigit).isEmpty then cs else tail.dropWhile Char.isDigit
  | _ => cs

def skipMinutes? (cs : List Char) : Option (List Char) :=
  match readFixed? 2 cs with
  | some (hour, ':' :: cs) =>
    match readFixed? 2 cs with
    | some (minute, rest) => if hour < 24 && minute < 60 then some rest else none
    | none => none
  | _ => none

def skipTime? (cs : List Char) : Option (List Char) :=
  match skipMinutes? cs with
  | some (':' :: cs) =>
    match readFixed? 2 cs with
    | some (second, rest) => if second ≤ 60 then some (skipFraction rest) else none
    | none => none
  | _ => none

/-- The rest after an offset from UTC, if there is one. -/
def skipOffset? : List Char → Option (List Char)
  | 'Z' :: rest | 'z' :: rest => some rest
  | '+' :: rest | '-' :: rest => skipMinutes? rest
  | cs => some cs

/-- The rest after a date with or without a time of day. -/
def skipDateTime? (cs : List Char) : Option (List Char) :=
  match skipDate? cs with
  | none => none
  | some rest =>
    match rest with
    | mark :: tail =>
      if mark = 'T' || mark = 't' || mark = ' ' then
        match skipTime? tail with
        | some rest => skipOffset? rest
        | none => some rest
      else some rest
    | [] => some rest

def readTime? (cs : List Char) : Option (Toml × List Char) :=
  let result :=
    match skipDateTime? cs with
    | some rest => some rest
    | none => skipTime? cs
  result.map fun rest => (.time (String.ofList (cs.take (cs.length - rest.length))), rest)

def readNumber? (cs : List Char) : Option (Toml × List Char) :=
  match cs with
  | '+' :: rest =>
    match readNamedFloat? 0 rest with
    | some r => some r
    | none => readDecimal? [] rest
  | '-' :: rest =>
    match readNamedFloat? Format.double.signWeight rest with
    | some r => some r
    | none => readDecimal? ['-'] rest
  | _ =>
    match readNamedFloat? 0 cs with
    | some r => some r
    | none =>
      match readTime? cs with
      | some r => some r
      | none => readUnsigned? cs

end Canopen.Toml
