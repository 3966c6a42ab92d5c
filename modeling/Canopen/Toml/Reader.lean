import Canopen.Toml.Scalar
/-!
# Reading TOML

A text is a sequence of lines, each of which is empty, opens a table or sets a key of the table
opened last.
-/
namespace Canopen.Toml

def skipLines : Nat → List Char → List Char
  | 0, cs => cs
  | fuel + 1, cs =>
    let rest := skipComment (skipBlanks cs)
    match readNewline? rest with
    | some rest => skipLines fuel rest
    | none => rest

mutual

def readValue? (depth : Nat) : Nat → List Char → Option (Toml × List Char)
  | 0, _ => none
  | fuel + 1, cs =>
    match cs with
    | '"' :: _ | '\'' :: _ => (readText? cs).map fun (s, rest) => (.str s, rest)
    | 't' :: 'r' :: 'u' :: 'e' :: rest => some (.bool true, rest)
    | 'f' :: 'a' :: 'l' :: 's' :: 'e' :: rest => some (.bool false, rest)
    | '[' :: rest =>
      if depth ≤ 1 then none
      else (readItems? (depth - 1) fuel rest).map fun (items, rest) => (.array items, rest)
    | '\x7b' :: rest =>
      if depth ≤ 1 then none
      else
        match skipBlanks rest with
        | '\x7d' :: rest => some (.table .inline [], rest)
        | rest =>
          (readMembers? (depth - 1) fuel [] rest).map fun (members, rest) =>
            (.table .inline members, rest)
    | _ => readNumber? cs

/-- The items of an array up to the closing bracket. A comma may follow the last one. -/
def readItems? (depth : Nat) : Nat → List Char → Option (List Toml × List Char)
  | 0, _ => none
  | fuel + 1, cs =>
    match skipLines cs.length cs with
    | ']' :: rest => some ([], rest)
    | cs =>
      match readValue? depth fuel cs with
      | none => none
      | some (v, rest) =>
        match skipLines rest.length rest with
        | ']' :: rest => some ([v], rest)
        | ',' :: rest => (readItems? depth fuel rest).map fun (items, rest) => (v :: items, rest)
        | _ => none

/-- The members of an inline table up to the closing brace, after those read already. -/
def readMembers? (depth : Nat) : Nat → Members → List Char → Option (Members × List Char)
  | 0, _, _ => none
  | fuel + 1, members, cs =>
    match readKey? cs with
    | some (key, '=' :: rest) =>
      match readValue? depth fuel (skipBlanks rest) with
      | none => none
      | some (v, rest) =>
        let (path, name) := splitKey key
        match addKey path name v .inline members with
        | none => none
        | some members =>
          match skipBlanks rest with
          | '\x7d' :: rest => some (members, rest)
          | ',' :: rest => readMembers? depth fuel members rest
          | _ => none
    | _ => none

end

/-- Sets a key of the table at a path. -/
def setAt (header : List String) (path : List String) (key : String) (value : Toml)
    (document : Members) : Option Members :=
  update false (fun origin members => addKey path key value origin members) header .header document

/-- One line that opens a table: what was opened, the document with it, and the rest. -/
def readHeader? (document : Members) (cs : List Char) :
    Option (List String × Members × List Char) :=
  match cs with
  | '[' :: '[' :: rest =>
    match readKey? rest with
    | some (key, ']' :: ']' :: rest) =>
      let (path, name) := splitKey key
      match openItem path name document, endLine? rest with
      | some document, some rest => some (key, document, rest)
      | _, _ => none
    | _ => none
  | '[' :: rest =>
    match readKey? rest with
    | some (key, ']' :: rest) =>
      let (path, name) := splitKey key
      match openTable path name document, endLine? rest with
      | some document, some rest => some (key, document, rest)
      | _, _ => none
    | _ => none
  | _ => none

/-- One line that sets a key: the document with it, and the rest. -/
def readSetting? (header : List String) (document : Members) (cs : List Char) :
    Option (Members × List Char) :=
  match readKey? cs with
  | some (key, '=' :: rest) =>
    let value := skipBlanks rest
    match readValue? maxDepth (2 * value.length + 2) value with
    | some (v, rest) =>
      let (path, name) := splitKey key
      match endLine? rest with
      | some rest => (setAt header path name v document).map fun document => (document, rest)
      | none => none
    | none => none
  | _ => none

def readDocument? : Nat → List String → Members → List Char → Option Members
  | 0, _, _, _ => none
  | fuel + 1, header, document, cs =>
    match skipLines cs.length cs with
    | [] => some document
    | '[' :: rest =>
      match readHeader? document ('[' :: rest) with
      | some (header, document, rest) => readDocument? fuel header document rest
      | none => none
    | cs =>
      match readSetting? header document cs with
      | some (document, rest) => readDocument? fuel header document rest
      | none => none

def dropByteOrderMark : List Char → List Char
  | '\ufeff' :: cs => cs
  | cs => cs

def parse? (s : String) : Option Members :=
  let cs := dropByteOrderMark s.toList
  readDocument? (cs.length + 1) [] [] cs

end Canopen.Toml
