/-
Winnow/Yaml/Document.lean

From the graph of a document to objects.

Every node becomes one item, and a node that is reached in two ways is one
object.  The cell of a collection is added when the collection is first met
and filled later, the collections one after another in the order in which they
were met (`Build.run`); so a collection may hold itself.
-/
import Winnow.Store.Basic
import Winnow.Yaml.Graph.Reading
import Winnow.Yaml.Scalar
import Winnow.Yaml.Token.Lexer

namespace Winnow.Yaml

/-- The objects built so far. -/
structure Build where
  graph : Graph
  store : Store
  /-- The items of the nodes met so far. -/
  items : List (Nat × Item)
  /-- The collections that are not filled yet, with their addresses. -/
  waiting : List (Nat × Nat)

namespace Build

/-! ### Scalars -/

/-- The text of a scalar.  The text of a mapping is that of the value under an
equals sign. -/
def textTo : (depth : Nat) → Graph → Nat → Except Fault String
  | 0, _, _ => .error .malformed
  | depth + 1, g, n => match g.vertex? n with
    | some ⟨_, .text s⟩ => .ok s
    | some ⟨_, .mapping entries⟩ =>
      match entries.find? fun e => g.tag e.1 == .standIn with
      | some (_, value) => textTo depth g value
      | none => .error .malformed
    | _ => .error .malformed

/-- The text of the node with a number. -/
def text (b : Build) (n : Nat) : Except Fault String := textTo (b.graph.vertices.size + 1) b.graph n

/-- The date or time of the node with a number, which must be a scalar
itself. -/
def time (b : Build) (n : Nat) : Except Fault Scalar := do
  let s ← b.text n
  match b.graph.vertex? n with
  | some ⟨_, .text _⟩ => readTime s
  | _ => .error .timeNotText

/-- The value of the node with a number, if its type is one of scalars. -/
def scalar? (b : Build) (n : Nat) : Tag → Option (Except Fault Scalar)
  | .null => some ((b.text n).map fun _ => .null)
  | .truth => some (do .ok (.truth (← readTruth (← b.text n))))
  | .integer => some (do .ok (.integer (← readInt (← b.text n))))
  | .float => some (do readFloat b.store.nextMark (← b.text n))
  | .text => some ((b.text n).map .text)
  | .bytes => some (do .ok (.bytes (← readBytes (← b.text n))))
  | .time => some (b.time n)
  | _ => none

/-- The empty cell of a type of collections. -/
def emptyCell? : Tag → Option Cell
  | .sequence | .orderedMapping | .pairs => some (.list [])
  | .mapping => some (.mapping [])
  | .set => some (.set [])
  | _ => none

/-! ### Items -/

/-- Remembers the item of a node. -/
def remember (b : Build) (n : Nat) (i : Item) : Item × Build :=
  (i, { b with items := (n, i) :: b.items })

/-- Remembers the scalar of a node.  The mark of one that is no number is then
taken. -/
def rememberScalar (b : Build) (n : Nat) (x : Scalar) : Item × Build :=
  let b := match x with
    | .nan _ => { b with store := { b.store with nextMark := b.store.nextMark + 1 } }
    | _ => b
  b.remember n (.scalar x)

/-- Adds the cell of a collection, to be filled later. -/
def begin (b : Build) (n : Nat) (c : Cell) : Item × Build :=
  let (item, store) := b.store.add c
  { b with store := store, waiting := b.waiting ++ [(n, b.store.size)] }.remember n item

/-- The item of the node with a number. -/
def item (b : Build) (n : Nat) : Except Fault (Item × Build) :=
  match b.items.lookup n with
  | some i => .ok (i, b)
  | none =>
    let tag := b.graph.tag n
    match b.scalar? n tag with
    | some r => do
      let s ← r
      .ok (b.rememberScalar n s)
    | none => match emptyCell? tag with
      | some c => .ok (b.begin n c)
      | none => .error .malformed

/-- The items of several nodes, one after another. -/
def itemRow (b : Build) : List Nat → Except Fault (List Item × Build)
  | [] => .ok ([], b)
  | n :: rest => do
    let (i, b) ← b.item n
    let (row, b) ← b.itemRow rest
    .ok (i :: row, b)

/-- The entries of a mapping, one after another.  A key is a scalar. -/
def entryRow (b : Build) (before : List (Value × Item)) :
    List (Nat × Nat) → Except Fault (List (Value × Item) × Build)
  | [] => .ok (before, b)
  | (k, v) :: rest => do
    let (key, b) ← b.item k
    match key with
    | .object _ => .error .malformed
    | .scalar s =>
      let (value, b) ← b.item v
      b.entryRow (Entries.insert (.scalar s) value before) rest

/-- The pairs of an ordered mapping, one after another.  Each is a mapping with
one entry. -/
def pairRow (b : Build) : List Nat → Except Fault (List Item × Build)
  | [] => .ok ([], b)
  | n :: rest => match b.graph.entries? n with
    | some [(k, v)] => do
      let (key, b) ← b.item k
      let (value, b) ← b.item v
      let (pair, store) := b.store.add (.tuple [key, value])
      let (row, b) ← { b with store := store }.pairRow rest
      .ok (pair :: row, b)
    | _ => .error .malformed

/-! ### Collections -/

/-- The entries of a mapping whose merges are taken out first. -/
def entriesOf (b : Build) (n : Nat) : Except Fault (List (Value × Item) × Build) := do
  match b.graph.entries? n with
  | none => .error .malformed
  | some _ =>
    let g ← b.graph.flatten n
    { b with graph := g }.entryRow [] ((g.entries? n).getD [])

/-- What the cell of a collection is filled with. -/
def contents (b : Build) (n : Nat) : Except Fault (Cell × Build) :=
  match b.graph.vertex? n with
  | some ⟨.sequence, .sequence items⟩ => do
    let (row, b) ← b.itemRow items
    .ok (.list row, b)
  | some ⟨.orderedMapping, .sequence items⟩ | some ⟨.pairs, .sequence items⟩ => do
    let (row, b) ← b.pairRow items
    .ok (.list row, b)
  | some ⟨.mapping, _⟩ => do
    let (entries, b) ← b.entriesOf n
    .ok (.mapping entries, b)
  | some ⟨.set, _⟩ => do
    let (entries, b) ← b.entriesOf n
    .ok (.set (entries.map (·.1)), b)
  | _ => .error .malformed

/-- Fills the collections that wait, and those met in them. -/
def run : (fuel : Nat) → Build → Except Fault Build
  | 0, b => .ok b
  | fuel + 1, b => match b.waiting with
    | [] => .ok b
    | (n, address) :: rest => do
      let (cell, b) ← { b with waiting := rest }.contents n
      run fuel { b with store := b.store.put address cell }

end Build

/-- Builds the objects of a graph from its outermost node on. -/
def build (g : Graph) (root : Nat) (s : Store) : Except Fault (Item × Store) := do
  let (item, b) ← (⟨g, s, [], []⟩ : Build).item root
  let b ← b.run (g.vertices.size + 1)
  .ok (item, b.store)

/-- Reads the only document of a supply.  A text without a document is no
value.  Collections may lie one within another to any depth; a reader that calls
itself for each of them would end with its stack. -/
def Supply.load (x : Supply) (s : Store) : Except Fault (Item × Store) := do
  match ← Graph.ofTokens? x.tokens with
  | none => .ok (.null, s)
  | some (root, g) => build g root s

end Winnow.Yaml
