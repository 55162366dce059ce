/-
Winnow/Yaml/Graph/Reading.lean

From the tokens of a document to its graph.

A node is a reference, or has properties and is a scalar, a sequence or a
mapping.  Where a node is missing, in front of a colon for instance, an empty
plain scalar stands.  The nodes are added to the graph as they are met: a
collection before the nodes in it, so that they may refer to it.  Of several
things that are wrong with a document the first one counts, and a token that
cannot be read is wrong where it is looked at.
-/
import Winnow.Yaml.Graph

namespace Winnow.Yaml

/-! ### Steps -/

/-- The graph built so far, and the tokens that are left. -/
structure Reading where
  graph : Graph
  tokens : List Token

namespace Reading

/-- Goes on to other tokens. -/
def resume (r : Reading) (ts : List Token) : Reading := { r with tokens := ts }

/-- Adds a scalar, and goes on to other tokens. -/
def scalar (r : Reading) (p : Properties) (text : String) (isPlain : Bool) (ts : List Token) :
    Except Fault (Nat × Reading) := do
  let (n, g) ← r.graph.addScalar p text isPlain
  .ok (n, ⟨g, ts⟩)

/-- Adds the node that stands where one is missing. -/
def missing (r : Reading) : Except Fault (Nat × Reading) := r.scalar .none "" true r.tokens

/-- Adds a collection without parts. -/
def begin (r : Reading) (p : Properties) (own : Tag) (empty : Content) (ts : List Token) :
    Except Fault (Nat × Reading) := do
  let (n, g) ← r.graph.add p.anchor ⟨Graph.collectionTag p own, empty⟩
  .ok (n, ⟨g, ts⟩)

/-- Gives a collection its parts. -/
def fill (r : Reading) (n : Nat) (content : Content) : Reading :=
  { r with graph := r.graph.put n ⟨r.graph.tag n, content⟩ }

/-- Goes on behind a comma. -/
def afterComma (r : Reading) : Except Fault Reading :=
  match r.tokens with
  | .flowEntry :: ts => .ok (r.resume ts)
  | ts => .error (unexpected ts)

end Reading

/-- Where a node stands: whether block collections may begin there, and whether
a block sequence may stand there at the indentation of its key. -/
structure Place where
  inBlock : Bool
  atKey : Bool
  deriving DecidableEq, Repr

namespace Place

/-- In a flow collection. -/
def flow : Place := ⟨false, false⟩

/-- In a document or an item of a block sequence. -/
def block : Place := ⟨true, false⟩

/-- In an entry of a block mapping. -/
def entry : Place := ⟨true, true⟩

end Place

/-! ### Nodes -/

mutual

/-- Reads a node. -/
def readNode (h : Handles) (place : Place) :
    (fuel : Nat) → Reading → Except Fault (Nat × Reading)
  | 0, _ => .error .malformed
  | fuel + 1, r => do
    if let .reference name :: ts := r.tokens then
      let n ← r.graph.refer name
      return (n, r.resume ts)
    let (p, ts) ← readProperties h r.tokens
    match ts with
    | .broken fault :: _ => .error fault
    | .scalar text isPlain :: ts => r.scalar p text isPlain ts
    | .flowSequenceStart :: ts =>
      let (n, r) ← r.begin p .sequence (.sequence []) ts
      let (items, r) ← readFlowItems h true fuel r
      .ok (n, r.fill n (.sequence items))
    | .flowMappingStart :: ts =>
      let (n, r) ← r.begin p .mapping (.mapping []) ts
      let (entries, r) ← readFlowEntries h true fuel r
      .ok (n, r.fill n (.mapping entries))
    | t :: rest =>
      if place.atKey && t = .blockEntry then
        let (n, r) ← r.begin p .sequence (.sequence []) ts
        let (items, r) ← readItemsAtKey h fuel r
        .ok (n, r.fill n (.sequence items))
      else if place.inBlock && t = .blockSequenceStart then
        let (n, r) ← r.begin p .sequence (.sequence []) rest
        let (items, r) ← readItems h fuel r
        .ok (n, r.fill n (.sequence items))
      else if place.inBlock && t = .blockMappingStart then
        let (n, r) ← r.begin p .mapping (.mapping []) rest
        let (entries, r) ← readEntries h fuel r
        .ok (n, r.fill n (.mapping entries))
      else if p.any then r.scalar p "" true ts
      else .error .malformed
    | [] => .error .malformed

/-- Reads a node, which is missing where one of the given tokens comes next. -/
def readNodeBefore (stops : List Token) (h : Handles) (place : Place) :
    (fuel : Nat) → Reading → Except Fault (Nat × Reading)
  | 0, _ => .error .malformed
  | fuel + 1, r => if comesNext stops r.tokens then r.missing else readNode h place fuel r

/-- Reads the node behind a colon, which is missing where no colon comes
next. -/
def readValue (stops : List Token) (h : Handles) (place : Place) :
    (fuel : Nat) → Reading → Except Fault (Nat × Reading)
  | 0, _ => .error .malformed
  | fuel + 1, r => match r.tokens with
    | .value :: ts => readNodeBefore stops h place fuel (r.resume ts)
    | _ => r.missing

/-- Reads the items of a block sequence. -/
def readItems (h : Handles) : (fuel : Nat) → Reading → Except Fault (List Nat × Reading)
  | 0, _ => .error .malformed
  | fuel + 1, r => match r.tokens with
    | .blockEntry :: ts => do
      let (item, r) ← readNodeBefore [.blockEntry, .blockEnd] h .block fuel (r.resume ts)
      let (items, r) ← readItems h fuel r
      .ok (item :: items, r)
    | .blockEnd :: ts => .ok ([], r.resume ts)
    | ts => .error (unexpected ts)

/-- Reads the items of a block sequence at the indentation of its key. -/
def readItemsAtKey (h : Handles) : (fuel : Nat) → Reading → Except Fault (List Nat × Reading)
  | 0, _ => .error .malformed
  | fuel + 1, r => match r.tokens with
    | .blockEntry :: ts => do
      let stops := [Token.blockEntry, .key, .value, .blockEnd]
      let (item, r) ← readNodeBefore stops h .block fuel (r.resume ts)
      let (items, r) ← readItemsAtKey h fuel r
      .ok (item :: items, r)
    | _ => .ok ([], r)

/-- Reads the entries of a block mapping. -/
def readEntries (h : Handles) : (fuel : Nat) → Reading → Except Fault (List (Nat × Nat) × Reading)
  | 0, _ => .error .malformed
  | fuel + 1, r => match r.tokens with
    | .key :: ts => do
      let stops := [Token.key, .value, .blockEnd]
      let (key, r) ← readNodeBefore stops h .entry fuel (r.resume ts)
      let (value, r) ← readValue stops h .entry fuel r
      let (entries, r) ← readEntries h fuel r
      .ok ((key, value) :: entries, r)
    | .blockEnd :: ts => .ok ([], r.resume ts)
    | ts => .error (unexpected ts)

/-- Reads the items of a flow sequence, where `isFirst` says that no comma has
to come before.  An item with a colon is a mapping with one entry. -/
def readFlowItems (h : Handles) (isFirst : Bool) :
    (fuel : Nat) → Reading → Except Fault (List Nat × Reading)
  | 0, _ => .error .malformed
  | fuel + 1, r => do
    if let .flowSequenceEnd :: ts := r.tokens then return ([], r.resume ts)
    let r ← if isFirst then .ok r else r.afterComma
    let stops := [Token.flowEntry, .flowSequenceEnd]
    match r.tokens with
    | .flowSequenceEnd :: ts => .ok ([], r.resume ts)
    | .key :: ts =>
      let (n, r) ← r.begin .none .mapping (.mapping []) ts
      let (key, r) ← readNodeBefore (.value :: stops) h .flow fuel r
      let (value, r) ← readValue stops h .flow fuel r
      let (items, r) ← readFlowItems h false fuel (r.fill n (.mapping [(key, value)]))
      .ok (n :: items, r)
    | _ =>
      let (item, r) ← readNode h .flow fuel r
      let (items, r) ← readFlowItems h false fuel r
      .ok (item :: items, r)

/-- Reads the entries of a flow mapping, where `isFirst` says that no comma has
to come before.  A node without a colon is a key. -/
def readFlowEntries (h : Handles) (isFirst : Bool) :
    (fuel : Nat) → Reading → Except Fault (List (Nat × Nat) × Reading)
  | 0, _ => .error .malformed
  | fuel + 1, r => do
    if let .flowMappingEnd :: ts := r.tokens then return ([], r.resume ts)
    let r ← if isFirst then .ok r else r.afterComma
    let stops := [Token.flowEntry, .flowMappingEnd]
    match r.tokens with
    | .flowMappingEnd :: ts => .ok ([], r.resume ts)
    | .key :: ts =>
      let (key, r) ← readNodeBefore (.value :: stops) h .flow fuel (r.resume ts)
      let (value, r) ← readValue stops h .flow fuel r
      let (entries, r) ← readFlowEntries h false fuel r
      .ok ((key, value) :: entries, r)
    | _ =>
      let (key, r) ← readNode h .flow fuel r
      let (value, r) ← r.missing
      let (entries, r) ← readFlowEntries h false fuel r
      .ok ((key, value) :: entries, r)

end

/-! ### Documents -/

/-- Reads the node of a document that begins with directives or its mark. -/
def readExplicit (fuel : Nat) (r : Reading) : Except Fault (Nat × Reading) := do
  let (h, ts) ← readDirectives false [] r.tokens
  match ts with
  | .documentStart :: ts =>
    let r := r.resume ts
    if ts.head?.any Token.isDirective || comesNext [.documentStart, .documentEnd, .streamEnd] ts
    then r.missing
    else readNode h .block fuel r
  | ts => .error (unexpected ts)

/-- Reads the node of a document. -/
def readDocument (fuel : Nat) (r : Reading) : Except Fault (Nat × Reading) :=
  if r.tokens.head?.any Token.isDirective || comesNext [.documentStart] r.tokens then
    readExplicit fuel r
  else readNode .standard .block fuel r

/-- Why tokens behind a document are not the end: a second document is wrong
when its beginning has come into sight. -/
def faultBehind (ts : List Token) : Fault :=
  match readDirectives false [] ts with
  | .ok (_, ts) => unexpected ts
  | .error fault => fault

/-- The graph of the only document of a text, and the number of its outermost
node; none if the text holds no document. -/
def Graph.ofTokens? : List Token → Except Fault (Option (Nat × Graph))
  | [.streamEnd] => .ok none
  | ts => do
    let (n, r) ← readDocument (4 * ts.length + 4) ⟨.empty, ts⟩
    match r.tokens.dropWhile (· == .documentEnd) with
    | [.streamEnd] => .ok (some (n, r.graph))
    | ts => .error (faultBehind ts)

end Winnow.Yaml
