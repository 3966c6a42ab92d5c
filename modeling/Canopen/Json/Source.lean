import Canopen.Json.Number
/-!
# Reading JSON

A JSON text is first cut into its parts, which keeps texts and numbers as they are written. What they
stand for is told when a part is asked for, so a part that nobody asks for need only be well formed:
it may hold half a character, a number too large or values at any depth.
-/
namespace Canopen.Json

open Canopen.Number Canopen.Text

structure Numeral where
  negative : Bool
  whole : List Nat
  fraction : Option (List Nat)
  exponent : Option Int
  deriving Repr

/-- A JSON text cut into its parts. A text is kept as it is written, without its quotes. -/
inductive Source where
  | null
  | bool (b : Bool)
  | number (n : Numeral)
  | text (written : String)
  | array (items : List Source)
  | object (members : List (String × Source))
  deriving Repr

def isSpace (c : Char) : Bool := c = ' ' || c = '\n' || c = '\t' || c = '\r'

def skipSpace (cs : List Char) : List Char := cs.dropWhile isSpace

def readHex4 : List Char → Option (Nat × List Char)
  | a :: b :: c :: d :: rest =>
    match Hex.digitValue? a, Hex.digitValue? b, Hex.digitValue? c, Hex.digitValue? d with
    | some a, some b, some c, some d => some (((a * 16 + b) * 16 + c) * 16 + d, rest)
    | _, _, _, _ => none
  | _ => none

/-- The character of a numeric escape, of which the digits begin the text. Characters above the
first 65536 are written as two numbers; one of the two alone is refused. -/
def readCodePoint (cs : List Char) : Option (Char × List Char) :=
  match readHex4 cs with
  | none => none
  | some (n, rest) =>
    if 0xDC00 ≤ n && n ≤ 0xDFFF then none
    else if 0xD800 ≤ n && n ≤ 0xDBFF then
      match rest with
      | '\\' :: 'u' :: low =>
        match readHex4 low with
        | some (m, rest) =>
          if 0xDC00 ≤ m && m ≤ 0xDFFF then
            some (Char.ofNat (0x10000 + (n - 0xD800) * 0x400 + (m - 0xDC00)), rest)
          else none
        | none => none
      | _ => none
    else some (Char.ofNat n, rest)

def simpleEscape? : Char → Option Char
  | '"' => some '"'
  | '\\' => some '\\'
  | '/' => some '/'
  | 'b' => some (Char.ofNat 8)
  | 'f' => some (Char.ofNat 12)
  | 'n' => some '\n'
  | 'r' => some '\r'
  | 't' => some '\t'
  | _ => none

/-- The length of the escape that a text begins with, of which the backslash has been read. -/
def escapeLength? : List Char → Option Nat
  | 'u' :: digits => (readHex4 digits).map fun _ => 5
  | c :: _ => (simpleEscape? c).map fun _ => 1
  | [] => none

/-- The characters up to the closing quote as they are written, in reverse, and what follows it. -/
def cutText : Nat → List Char → List Char → Option (List Char × List Char)
  | 0, _, _ => none
  | fuel + 1, acc, cs =>
    match cs with
    | [] => none
    | '"' :: rest => some (acc, rest)
    | '\\' :: rest =>
      match escapeLength? rest with
      | some n => cutText fuel ((rest.take n).reverse ++ '\\' :: acc) (rest.drop n)
      | none => none
    | c :: rest => if c.toNat < 32 then none else cutText fuel (c :: acc) rest

/-- The characters that a text stands for, in reverse. -/
def unescape : Nat → List Char → List Char → Option (List Char)
  | 0, _, _ => none
  | fuel + 1, acc, cs =>
    match cs with
    | [] => some acc
    | '\\' :: 'u' :: rest =>
      match readCodePoint rest with
      | some (c, rest) => unescape fuel (c :: acc) rest
      | none => none
    | '\\' :: e :: rest =>
      match simpleEscape? e with
      | some c => unescape fuel (c :: acc) rest
      | none => none
    | c :: rest => unescape fuel (c :: acc) rest

def textOf? (written : String) : Option String :=
  let cs := written.toList
  (unescape (cs.length + 1) [] cs).map fun acc => String.ofList acc.reverse

/-- The digits at the beginning of a text, and what follows them. -/
def takeDigits (cs : List Char) : List Nat × List Char :=
  ((cs.takeWhile Char.isDigit).map fun c => c.toNat - 48, cs.dropWhile Char.isDigit)

def readExponent (cs : List Char) : Option (Option Int × List Char) :=
  let (hasLetter, tail) :=
    match cs with
    | 'e' :: rest | 'E' :: rest => (true, rest)
    | _ => (false, cs)
  if !hasLetter then some (none, cs)
  else
    let (negative, tail) :=
      match tail with
      | '+' :: rest => (false, rest)
      | '-' :: rest => (true, rest)
      | _ => (false, tail)
    match takeDigits tail with
    | ([], _) => none
    | (digits, rest) =>
      let n : Int := (digits.foldl (fun n d => n * 10 + d) 0 : Nat)
      some (some (if negative then -n else n), rest)

/-- A number. Only zero itself begins with a zero. -/
def readNumeral (cs : List Char) : Option (Numeral × List Char) :=
  let (negative, cs) :=
    match cs with
    | '-' :: rest => (true, rest)
    | _ => (false, cs)
  match takeDigits cs with
  | ([], _) => none
  | (whole, rest) =>
    if whole.head? = some 0 && 1 < whole.length then none
    else
      let afterPoint : Option (Option (List Nat) × List Char) :=
        match rest with
        | '.' :: rest =>
          match takeDigits rest with
          | ([], _) => none
          | (fraction, rest) => some (some fraction, rest)
        | _ => some (none, rest)
      match afterPoint with
      | none => none
      | some (fraction, rest) =>
        (readExponent rest).map fun (exponent, rest) =>
          (⟨negative, whole, fraction, exponent⟩, rest)

def Numeral.toJson? (n : Numeral) : Option Json :=
  ofDigits n.negative n.whole n.fraction n.exponent

def numberOf? (written : String) : Option Json :=
  match readNumeral written.toList with
  | some (n, []) => n.toJson?
  | _ => none

namespace Source

def readScalar (fuel : Nat) (cs : List Char) : Option (Source × List Char) :=
  match cs with
  | '"' :: rest =>
    (cutText fuel [] rest).map fun (acc, rest) =>
      (.text (String.ofList acc.reverse), rest)
  | 't' :: 'r' :: 'u' :: 'e' :: rest => some (.bool true, rest)
  | 'f' :: 'a' :: 'l' :: 's' :: 'e' :: rest => some (.bool false, rest)
  | 'n' :: 'u' :: 'l' :: 'l' :: rest => some (.null, rest)
  | _ => (readNumeral cs).map fun (n, rest) => (.number n, rest)

mutual

/-- A value and what follows it. -/
def readValue : Nat → List Char → Option (Source × List Char)
  | 0, _ => none
  | fuel + 1, cs =>
    match skipSpace cs with
    | '[' :: rest =>
      match skipSpace rest with
      | ']' :: rest => some (.array [], rest)
      | rest => (readItems fuel rest).map fun (items, rest) => (.array items, rest)
    | '\x7b' :: rest =>
      match skipSpace rest with
      | '\x7d' :: rest => some (.object [], rest)
      | rest => (readMembers fuel rest).map fun (members, rest) => (.object members, rest)
    | rest => readScalar fuel rest

/-- The items of an array up to the closing bracket. -/
def readItems : Nat → List Char → Option (List Source × List Char)
  | 0, _ => none
  | fuel + 1, cs =>
    match readValue fuel cs with
    | none => none
    | some (v, rest) =>
      match skipSpace rest with
      | ']' :: rest => some ([v], rest)
      | ',' :: rest => (readItems fuel rest).map fun (items, rest) => (v :: items, rest)
      | _ => none

/-- The members of an object up to the closing brace. -/
def readMembers : Nat → List Char → Option (List (String × Source) × List Char)
  | 0, _ => none
  | fuel + 1, cs =>
    match skipSpace cs with
    | '"' :: rest =>
      match cutText fuel [] rest with
      | none => none
      | some (acc, rest) =>
        match skipSpace rest with
        | ':' :: rest =>
          match readValue fuel rest with
          | none => none
          | some (v, rest) =>
            let member := (String.ofList acc.reverse, v)
            match skipSpace rest with
            | '\x7d' :: rest => some ([member], rest)
            | ',' :: rest =>
              (readMembers fuel rest).map fun (members, rest) => (member :: members, rest)
            | _ => none
        | _ => none
    | _ => none

end

/-- Cuts a text, which has to be one value with blanks around it. -/
def parse? (s : String) : Option Source :=
  let cs := s.toList
  match readValue (2 * cs.length + 2) cs with
  | some (v, rest) => if skipSpace rest = [] then some v else none
  | none => none

mutual

/-- The value that parts stand for, if arrays and objects lie within one another less deep than
given. -/
def toJson? (depth : Nat) : Source → Option Json
  | null => some .null
  | bool b => some (.bool b)
  | number n => n.toJson?
  | text written => (textOf? written).map .str
  | array items => if depth ≤ 1 then none else (jsonItems? (depth - 1) items).map .array
  | object members => if depth ≤ 1 then none else (jsonMembers? (depth - 1) members).map .object

def jsonItems? (depth : Nat) : List Source → Option (List Json)
  | [] => some []
  | v :: rest =>
    match toJson? depth v with
    | none => none
    | some j => (jsonItems? depth rest).map (j :: ·)

def jsonMembers? (depth : Nat) : List (String × Source) → Option (List (String × Json))
  | [] => some []
  | (key, v) :: rest =>
    match textOf? key, toJson? depth v with
    | some key, some j => (jsonMembers? depth rest).map ((key, j) :: ·)
    | _, _ => none

end

end Source

/-- Reads a text as one value, of a depth of at most 127. -/
def parse? (s : String) : Option Json := (Source.parse? s).bind (·.toJson? 128)

end Canopen.Json
