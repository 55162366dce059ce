/-
Winnow/Yaml/Graph.lean

A document as a graph: its nodes are numbered, and a reference is the number of
the node that it refers to.  A node may be reached in several ways, and from
itself.
-/
import Winnow.Yaml.Properties
import Winnow.Yaml.Tag

namespace Winnow.Yaml

/-- What a node of a graph holds. -/
inductive Content
  | text (s : String)
  | sequence (items : List Nat)
  | mapping (entries : List (Nat × Nat))
  deriving Repr

/-- A node of a graph. -/
structure Vertex where
  tag : Tag
  content : Content
  deriving Repr

/-- The nodes of a document, and the numbers of those with an anchor. -/
structure Graph where
  vertices : Array Vertex
  anchors : List (String × Nat)

namespace Graph

/-- The graph without nodes. -/
def empty : Graph := ⟨#[], []⟩

/-- The node with a number. -/
def vertex? (g : Graph) (n : Nat) : Option Vertex := g.vertices[n]?

/-- Changes the node with a number. -/
def put (g : Graph) (n : Nat) (v : Vertex) : Graph :=
  { g with vertices := g.vertices.setIfInBounds n v }

/-- Adds a node, with its anchor if it has one.  No two nodes have one
anchor. -/
def add (g : Graph) (anchor : Option String) (v : Vertex) : Except Fault (Nat × Graph) :=
  let n := g.vertices.size
  match anchor with
  | none => .ok (n, { g with vertices := g.vertices.push v })
  | some name =>
    if (g.anchors.lookup name).isSome then .error .malformed
    else .ok (n, ⟨g.vertices.push v, (name, n) :: g.anchors⟩)

/-- The tag that stands for the type that a node has without a tag. -/
def unspecified : String := "!"

/-- The type of a scalar. -/
def scalarTag (p : Properties) (text : String) (isPlain : Bool) : Tag :=
  match p.tag with
  | none => if isPlain then .ofPlain text.toList else .text
  | some name => if name = unspecified then .ofPlain text.toList else .ofName name

/-- The type of a collection that is of type `own` without a tag. -/
def collectionTag (p : Properties) (own : Tag) : Tag :=
  match p.tag with
  | none => own
  | some name => if name = unspecified then own else .ofName name

/-- Adds a scalar. -/
def addScalar (g : Graph) (p : Properties) (text : String) (isPlain : Bool) :
    Except Fault (Nat × Graph) :=
  g.add p.anchor ⟨scalarTag p text isPlain, .text text⟩

/-- The number of the node with an anchor. -/
def refer (g : Graph) (name : String) : Except Fault Nat :=
  match g.anchors.lookup name with
  | some n => .ok n
  | none => .error .malformed

/-! ### Merged mappings -/

/-- The type of the node with a number. -/
def tag (g : Graph) (n : Nat) : Tag := ((g.vertex? n).map (·.tag)).getD .other

/-- The entries of the node with a number, if it is a mapping. -/
def entries? (g : Graph) (n : Nat) : Option (List (Nat × Nat)) :=
  match g.vertex? n with
  | some ⟨_, .mapping entries⟩ => some entries
  | _ => none

/-- Changes the entries of the node with a number. -/
def putEntries (g : Graph) (n : Nat) (entries : List (Nat × Nat)) : Graph :=
  g.put n ⟨g.tag n, .mapping entries⟩

/-- Gives the node with a number another type. -/
def putTag (g : Graph) (n : Nat) (tag : Tag) : Graph :=
  match g.vertex? n with
  | some v => g.put n { v with tag := tag }
  | none => g

/-- How many entries of all mappings merge others. -/
def mergeCount (g : Graph) : Nat :=
  g.vertices.foldl (fun count v => match v.content with
    | .mapping entries => count + entries.countP fun e => g.tag e.1 == .merge
    | _ => count) 0

/-- The entries that a merged node gives to a mapping, where `flatten` takes
the merges out of a mapping first. -/
def mergedEntries (flatten : Graph → Nat → Except Fault Graph) (g : Graph) (n : Nat) :
    Except Fault (List (Nat × Nat) × Graph) := do
  match g.entries? n with
  | none => .error .malformed
  | some _ =>
    let g ← flatten g n
    .ok ((g.entries? n).getD [], g)

/-- The entries that several merged nodes give to a mapping, those of later
nodes in front. -/
def mergedRow (flatten : Graph → Nat → Except Fault Graph) (g : Graph) :
    List Nat → Except Fault (List (Nat × Nat) × Graph)
  | [] => .ok ([], g)
  | n :: rest => do
    let (entries, g) ← mergedEntries flatten g n
    let (more, g) ← mergedRow flatten g rest
    .ok (more ++ entries, g)

/-- The entries that the value of a merge gives to a mapping: those of one
mapping, or of each in a sequence. -/
def merged (flatten : Graph → Nat → Except Fault Graph) (g : Graph) (n : Nat) :
    Except Fault (List (Nat × Nat) × Graph) :=
  match g.vertex? n with
  | some ⟨_, .sequence items⟩ => mergedRow flatten g items
  | _ => mergedEntries flatten g n

/-- Takes the merges out of the entries of a mapping from a position on.
Returned are the entries to be put in front. -/
def flattenFrom (flatten : Graph → Nat → Except Fault Graph) (n : Nat) :
    (fuel position : Nat) → Graph → Except Fault (List (Nat × Nat) × Graph)
  | 0, _, g => .ok ([], g)
  | fuel + 1, position, g =>
    let entries := (g.entries? n).getD []
    match entries[position]? with
    | none => .ok ([], g)
    | some (key, value) =>
      match g.tag key with
      | .merge => do
        let (given, g) ← merged flatten (g.putEntries n (entries.eraseIdx position)) value
        let (more, g) ← flattenFrom flatten n fuel position g
        .ok (given ++ more, g)
      | .standIn => flattenFrom flatten n fuel (position + 1) (g.putTag key .text)
      | _ => flattenFrom flatten n fuel (position + 1) g

/-- Takes the merges out of a mapping, with at most `depth` merges one within
another: the entries given by others come before its own.  A key that is an
equals sign is then a text. -/
def flattenTo : (depth : Nat) → Graph → Nat → Except Fault Graph
  | 0, g, _ => .ok g
  | depth + 1, g, n => do
    let fuel := (g.vertices.foldl (fun count v => match v.content with
      | .mapping entries => count + entries.length
      | _ => count) 0) * (g.mergeCount + 1) + 1
    let (given, g) ← flattenFrom (flattenTo depth) n fuel 0 g
    .ok (g.putEntries n (given ++ (g.entries? n).getD []))

/-- Takes the merges out of a mapping.  Every merge within a merge has been
taken out of its mapping before. -/
def flatten (g : Graph) (n : Nat) : Except Fault Graph := flattenTo (g.mergeCount + 1) g n

end Graph

end Winnow.Yaml
