import Canopen.Yaml.Token
/-!
# Nodes of YAML

The tree of a document, put together from its tokens. An alias is kept as such. It stands for a node
by number: an anchor that is new gets the number of different anchors before it, and so does one that
is used again, so a later anchor can take over the number of an earlier one.
-/
namespace Canopen.Yaml

/-- A node of a document, with the number of its anchor. -/
inductive Node where
  | scalar (anchor : Option Nat) (tag : Option Tag) (style : ScalarStyle) (text : String)
  | sequence (anchor : Option Nat) (tag : Option Tag) (items : List Node)
  | mapping (anchor : Option Nat) (tag : Option Tag) (pairs : List (Node × Node))
  | alias (number : Nat)
  /-- The node of a text without a document. -/
  | absent
  deriving Repr, Inhabited

namespace Node

/-- The node where nothing is written. -/
def empty : Node := .scalar none none .plain ""

/-- The numbers of anchors by name, each name once. -/
abbrev Anchors := List (String × Nat)

def numberAnchor (anchor : Option String) (anchors : Anchors) : Option Nat × Anchors :=
  match anchor with
  | none => (none, anchors)
  | some name =>
    let number := anchors.length
    (some number, (name, number) :: anchors.filter fun a => a.1 ≠ name)

/-- What a part of a document is read from, and what is left after it. -/
structure Rest where
  tokens : List Token
  anchors : Anchors := []

/-- The starts of tags by handle. -/
abbrev Handles := List (String × Tag)

def defaultHandles : Handles := [("!", .ofText "!"), ("!!", .core "")]

/-- The properties before a node: an anchor and a tag in either order. -/
structure Properties where
  anchor : Option String := none
  tag : Option Tag := none

def resolveTag (handles : Handles) (handle : String) (suffix : Tag) : Except Fault Tag :=
  if handle = "" then .ok suffix
  else
    match handles.lookup handle with
    | some start => .ok (start ++ suffix)
    | none => .error .undefinedTagHandle

def readProperties (handles : Handles) (ts : List Token) :
    Except Fault (Properties × List Token) :=
  match ts with
  | .anchor name :: .tag handle suffix :: rest | .tag handle suffix :: .anchor name :: rest =>
    (resolveTag handles handle suffix).map fun tag => (⟨some name, some tag⟩, rest)
  | .anchor name :: rest => .ok (⟨some name, none⟩, rest)
  | .tag handle suffix :: rest =>
    (resolveTag handles handle suffix).map fun tag => (⟨none, some tag⟩, rest)
  | _ => .ok ({}, ts)

/-- The tag that a written scalar keeps: the mark that stands for no particular tag is none. -/
def scalarTag (tag : Option Tag) : Option Tag := tag.filter (· ≠ .unspecific)

/-- Holds of the tokens in front of which nothing is written. -/
def endsNode (inBlock : Bool) (ts : List Token) (others : List Token) : Bool :=
  match ts with
  | [] => true
  | t :: _ =>
    if inBlock then t = .blockEnd || others.contains t
    else others.contains t

mutual

/-- A node and what is left after it. -/
def read (handles : Handles) (inBlock indentless : Bool) : Nat → Rest → Except Fault (Node × Rest)
  | 0, _ => .error .unexpectedToken
  | fuel + 1, ⟨ts, anchors⟩ =>
    match ts with
    | .alias name :: rest =>
      match anchors.lookup name with
      | some number => .ok (.alias number, ⟨rest, anchors⟩)
      | none => .error .undefinedAnchor
    | _ =>
      match readProperties handles ts with
      | .error e => .error e
      | .ok (properties, ts) =>
        let (anchor, anchors) := numberAnchor properties.anchor anchors
        let tag := properties.tag
        let unwritten : Except Fault (Node × Rest) :=
          if anchor.isSome || tag.isSome then .ok (.scalar anchor tag .plain "", ⟨ts, anchors⟩)
          else .error .unexpectedToken
        let sequence (result : Except Fault (List Node × Rest)) : Except Fault (Node × Rest) :=
          result.map fun (items, after) => (.sequence anchor tag items, after)
        let mapping (result : Except Fault (List (Node × Node) × Rest)) :
            Except Fault (Node × Rest) :=
          result.map fun (pairs, after) => (.mapping anchor tag pairs, after)
        match ts with
        | .blockEntry :: _ =>
          if indentless then sequence (readIndentless handles fuel ⟨ts, anchors⟩) else unwritten
        | .scalar style text :: rest =>
          .ok (.scalar anchor (scalarTag tag) style text, ⟨rest, anchors⟩)
        | .flowSequenceStart :: rest => sequence (readFlowItems handles true fuel ⟨rest, anchors⟩)
        | .flowMappingStart :: rest => mapping (readFlowPairs handles true fuel ⟨rest, anchors⟩)
        | .blockSequenceStart :: rest =>
          if inBlock then sequence (readBlockItems handles fuel ⟨rest, anchors⟩) else unwritten
        | .blockMappingStart :: rest =>
          if inBlock then mapping (readBlockPairs handles fuel ⟨rest, anchors⟩) else unwritten
        | _ => unwritten

def readBlockItems (handles : Handles) : Nat → Rest → Except Fault (List Node × Rest)
  | 0, _ => .error .unexpectedToken
  | fuel + 1, ⟨ts, anchors⟩ =>
    match ts with
    | .blockEnd :: rest => .ok ([], ⟨rest, anchors⟩)
    | .blockEntry :: rest =>
      let item :=
        if endsNode true rest [.blockEntry] then .ok (empty, ⟨rest, anchors⟩)
        else read handles true false fuel ⟨rest, anchors⟩
      match item with
      | .error e => .error e
      | .ok (node, after) =>
        match readBlockItems handles fuel after with
        | .ok (nodes, after) => .ok (node :: nodes, after)
        | .error e => .error e
    | _ => .error .unexpectedToken

/-- The items of a sequence that is not indented inside a mapping. -/
def readIndentless (handles : Handles) : Nat → Rest → Except Fault (List Node × Rest)
  | 0, _ => .error .unexpectedToken
  | fuel + 1, ⟨ts, anchors⟩ =>
    match ts with
    | .blockEntry :: rest =>
      let item :=
        if endsNode true rest [.blockEntry, .key, .value] then .ok (empty, ⟨rest, anchors⟩)
        else read handles true false fuel ⟨rest, anchors⟩
      match item with
      | .error e => .error e
      | .ok (node, after) =>
        match readIndentless handles fuel after with
        | .ok (nodes, after) => .ok (node :: nodes, after)
        | .error e => .error e
    | _ => .ok ([], ⟨ts, anchors⟩)

def readBlockPairs (handles : Handles) : Nat → Rest → Except Fault (List (Node × Node) × Rest)
  | 0, _ => .error .unexpectedToken
  | fuel + 1, ⟨ts, anchors⟩ =>
    let part (rest : List Token) (anchors : Anchors) :=
      if endsNode true rest [.key, .value] then .ok (empty, ⟨rest, anchors⟩)
      else read handles true true fuel ⟨rest, anchors⟩
    let key : Except Fault (Node × Rest) :=
      match ts with
      | .key :: rest => part rest anchors
      | _ => .error .unexpectedToken
    match ts with
    | .blockEnd :: rest => .ok ([], ⟨rest, anchors⟩)
    | _ =>
      match key with
      | .error e => .error e
      | .ok (k, after) =>
        let value : Except Fault (Node × Rest) :=
          match after.tokens with
          | .value :: rest => part rest after.anchors
          | _ => .ok (empty, after)
        match value with
        | .error e => .error e
        | .ok (v, after) =>
          match readBlockPairs handles fuel after with
          | .ok (pairs, after) => .ok ((k, v) :: pairs, after)
          | .error e => .error e

/-- The items of a flow sequence. An item with a key is a mapping of one pair. -/
def readFlowItems (handles : Handles) (first : Bool) :
    Nat → Rest → Except Fault (List Node × Rest)
  | 0, _ => .error .unexpectedToken
  | fuel + 1, ⟨ts, anchors⟩ =>
    match ts with
    | .flowSequenceEnd :: rest => .ok ([], ⟨rest, anchors⟩)
    | _ =>
      let begun : Except Fault (List Token) :=
        if first then .ok ts
        else
          match ts with
          | .flowEntry :: rest => .ok rest
          | _ => .error .unexpectedToken
      match begun with
      | .error e => .error e
      | .ok (.flowSequenceEnd :: rest) => .ok ([], ⟨rest, anchors⟩)
      | .ok ts =>
        let item :=
          match ts with
          | .key :: rest => readFlowPair handles fuel ⟨rest, anchors⟩
          | _ => read handles false false fuel ⟨ts, anchors⟩
        match item with
        | .error e => .error e
        | .ok (node, after) =>
          match readFlowItems handles false fuel after with
          | .ok (nodes, after) => .ok (node :: nodes, after)
          | .error e => .error e

/-- The pair that is an item of a flow sequence. -/
def readFlowPair (handles : Handles) : Nat → Rest → Except Fault (Node × Rest)
  | 0, _ => .error .unexpectedToken
  | fuel + 1, ⟨ts, anchors⟩ =>
    let key : Except Fault (Node × Rest) :=
      if endsNode false ts [.value, .flowEntry, .flowSequenceEnd] then
        .ok (empty, ⟨ts.drop 1, anchors⟩)
      else read handles false false fuel ⟨ts, anchors⟩
    match key with
    | .error e => .error e
    | .ok (k, after) =>
      let value : Except Fault (Node × Rest) :=
        match after.tokens with
        | .value :: rest =>
          if endsNode false rest [.flowEntry, .flowSequenceEnd] then
            .ok (empty, ⟨rest, after.anchors⟩)
          else read handles false false fuel ⟨rest, after.anchors⟩
        | _ => .ok (empty, after)
      match value with
      | .error e => .error e
      | .ok (v, after) => .ok (.mapping none none [(k, v)], after)

def readFlowPairs (handles : Handles) (first : Bool) :
    Nat → Rest → Except Fault (List (Node × Node) × Rest)
  | 0, _ => .error .unexpectedToken
  | fuel + 1, ⟨ts, anchors⟩ =>
    match ts with
    | .flowMappingEnd :: rest => .ok ([], ⟨rest, anchors⟩)
    | _ =>
      let begun : Except Fault (List Token) :=
        if first then .ok ts
        else
          match ts with
          | .flowEntry :: rest => .ok rest
          | _ => .error .unexpectedToken
      match begun with
      | .error e => .error e
      | .ok (.flowMappingEnd :: rest) => .ok ([], ⟨rest, anchors⟩)
      | .ok ts =>
        let (hasKey, ts) :=
          match ts with
          | .key :: rest => (true, rest)
          | _ => (false, ts)
        let key : Except Fault (Node × Rest) :=
          if hasKey && endsNode false ts [.value, .flowEntry, .flowMappingEnd] then
            .ok (empty, ⟨ts, anchors⟩)
          else read handles false false fuel ⟨ts, anchors⟩
        match key with
        | .error e => .error e
        | .ok (k, after) =>
          let value : Except Fault (Node × Rest) :=
            match hasKey, after.tokens with
            | true, .value :: rest =>
              if endsNode false rest [.flowEntry, .flowMappingEnd] then
                .ok (empty, ⟨rest, after.anchors⟩)
              else read handles false false fuel ⟨rest, after.anchors⟩
            | _, _ => .ok (empty, after)
          match value with
          | .error e => .error e
          | .ok (v, after) =>
            match readFlowPairs handles false fuel after with
            | .ok (pairs, after) => .ok ((k, v) :: pairs, after)
            | .error e => .error e

end

/-- The directives at the head of a document. The version can be given once, a handle too. -/
def readDirectives : Nat → Bool → Handles → List Token → Except Fault (Handles × List Token)
  | 0, _, handles, ts => .ok (handles, ts)
  | fuel + 1, versioned, handles, ts =>
    match ts with
    | .versionDirective major minor :: rest =>
      if versioned || major ≠ 1 || (minor ≠ 1 && minor ≠ 2) then .error .badDirective
      else readDirectives fuel true handles rest
    | .tagDirective handle start :: rest =>
      if (handles.lookup handle).isSome then .error .badDirective
      else readDirectives fuel versioned ((handle, start) :: handles) rest
    | _ => .ok (handles, ts)

def dropEnds (ts : List Token) : List Token := ts.dropWhile (· = .documentEnd)

/-- The document at the head of tokens. -/
def readDocument (ts : List Token) : Except Fault (Node × Rest) :=
  match readDirectives ts.length false [] ts with
  | .error e => .error e
  | .ok (given, rest) =>
    let handles := given ++ defaultHandles
    match rest with
    | .documentStart :: content =>
      match content with
      | [] | .documentStart :: _ | .documentEnd :: _ | .versionDirective _ _ :: _
      | .tagDirective _ _ :: _ => .ok (empty, ⟨content, []⟩)
      | _ => read handles true false (4 * content.length + 4) ⟨content, []⟩
    | _ =>
      if rest.length < ts.length then .error .unexpectedToken
      else read handles true false (4 * ts.length + 4) ⟨ts, []⟩

/-- The only document of the tokens of a text. -/
def ofTokens (ts : List Token) : Except Fault Node :=
  match ts with
  | [] => .ok .absent
  | _ =>
    match readDocument ts with
    | .error e => .error e
    | .ok (node, after) =>
      if dropEnds after.tokens = [] then .ok node else .error .moreThanOneDocument

def parse (text : String) : Except Fault Node :=
  match Token.ofText text with
  | .ok ts => ofTokens ts
  | .error e => .error e

end Node

end Canopen.Yaml
