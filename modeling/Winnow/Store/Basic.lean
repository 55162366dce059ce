/-
Winnow/Store/Basic.lean

Values that share parts.

A store is a row of cells.  A cell holds a list, a tuple, a mapping or a set,
whose parts are items: scalars, or the addresses of other cells.  Two items
with the same address are the same object, and a change of its cell shows in
both.  Cells are added at the end and never removed, so an address stays good.

`place` puts a value into new cells and `view` reads one back.  Keys are
values, because nothing that can change is a key.
-/
import Winnow.Value.Basic

namespace Winnow

/-- A scalar, or the address of a cell. -/
inductive Item
  | scalar (s : Scalar)
  | object (address : Nat)

instance : Inhabited Item := ⟨.scalar .null⟩

/-- What a cell holds. -/
inductive Cell
  | list (items : List Item)
  | tuple (items : List Item)
  | mapping (entries : List (Value × Item))
  | set (members : List Value)

/-- Cells by their addresses. -/
structure Store where
  cells : Array Cell
  /-- The mark of the next float that is no number. -/
  nextMark : Nat

namespace Cell

/-- The kind of what a cell holds. -/
def kind : Cell → Kind
  | list _ => .list
  | tuple _ => .tuple
  | mapping _ => .mapping
  | set _ => .set

/-- The items in a cell, keys left out. -/
def items : Cell → List Item
  | list items => items
  | tuple items => items
  | mapping entries => entries.map (·.2)
  | set _ => []

/-- Changes the items in a cell, keys left out. -/
def map (f : Item → Item) : Cell → Cell
  | list items => list (items.map f)
  | tuple items => tuple (items.map f)
  | mapping entries => mapping (entries.map fun (k, v) => (k, f v))
  | set members => set members

/-- Whether a cell holds nothing. -/
def isEmpty : Cell → Bool
  | list items => items.isEmpty
  | tuple items => items.isEmpty
  | mapping entries => entries.isEmpty
  | set members => members.isEmpty

end Cell

namespace Item

/-- No value. -/
abbrev null : Item := .scalar .null

/-- Whether an item is no value. -/
def isNull : Item → Bool
  | scalar .null => true
  | _ => false

/-- The scalar that an item is, if it is one. -/
def scalar? : Item → Option Scalar
  | scalar s => some s
  | object _ => none

/-- The address of an item, if it has one. -/
def address? : Item → Option Nat
  | scalar _ => none
  | object a => some a

end Item

namespace Store

/-- The store without cells. -/
def empty : Store := ⟨#[], Scalar.commonMark + 1⟩

/-- The number of cells. -/
def size (s : Store) : Nat := s.cells.size

/-- The cell at an address. -/
def cell? (s : Store) (address : Nat) : Option Cell := s.cells[address]?

/-- Adds a cell. -/
def add (s : Store) (c : Cell) : Item × Store :=
  (.object s.size, { s with cells := s.cells.push c })

/-- Changes the cell at an address. -/
def put (s : Store) (address : Nat) (c : Cell) : Store :=
  { s with cells := s.cells.setIfInBounds address c }

/-- The entries of an item that is a mapping. -/
def entries? (s : Store) (i : Item) : Option (List (Value × Item)) :=
  match i.address?.bind s.cell? with
  | some (.mapping entries) => some entries
  | _ => none

/-- The kind of an item. -/
def kind (s : Store) : Item → Kind
  | .scalar x => x.kind
  | .object a => ((s.cell? a).map Cell.kind).getD .null

/-! ### Values to cells -/

mutual

/-- Puts a value into new cells. -/
def place (s : Store) : Value → Item × Store
  | .scalar x => (.scalar x, s)
  | .list values =>
    let (items, s) := placeAll s values
    s.add (.list items)
  | .tuple values =>
    let (items, s) := placeAll s values
    s.add (.tuple items)
  | .mapping entries =>
    let (entries, s) := placeEntries s entries
    s.add (.mapping entries)
  | .set members => s.add (.set members)

/-- Puts values into new cells. -/
def placeAll (s : Store) : List Value → List Item × Store
  | [] => ([], s)
  | v :: vs =>
    let (item, s) := place s v
    let (items, s) := placeAll s vs
    (item :: items, s)

/-- Puts the values of entries into new cells. -/
def placeEntries (s : Store) : List (Value × Value) → List (Value × Item) × Store
  | [] => ([], s)
  | (k, v) :: rest =>
    let (item, s) := place s v
    let (entries, s) := placeEntries s rest
    ((k, item) :: entries, s)

end

/-! ### Cells to values -/

/-- The value of an item down to a depth. -/
def viewTo (s : Store) : (depth : Nat) → Item → Value
  | _, .scalar x => .scalar x
  | 0, .object _ => .null
  | depth + 1, .object a => match s.cell? a with
    | some (.list items) => .list (items.map (viewTo s depth))
    | some (.tuple items) => .tuple (items.map (viewTo s depth))
    | some (.mapping entries) => .mapping (entries.map fun (k, v) => (k, viewTo s depth v))
    | some (.set members) => .set members
    | none => .null

/-- The value of an item.  No value goes deeper than there are cells, unless an
object is a part of itself. -/
def view (s : Store) (i : Item) : Value := s.viewTo (s.size + 1) i

/-- Whether an item goes no deeper than a depth. -/
def endsWithin (s : Store) : (depth : Nat) → Item → Bool
  | _, .scalar _ => true
  | 0, .object _ => false
  | depth + 1, .object a => (s.cell? a).all fun c => c.items.all (s.endsWithin depth)

/-! ### Copies -/

/-- The addresses met from those in `toVisit` on, behind those met before. -/
def reachedFrom (s : Store) : (fuel : Nat) → (met toVisit : List Nat) → List Nat
  | 0, met, _ => met
  | _ + 1, met, [] => met
  | fuel + 1, met, a :: rest =>
    if met.contains a then reachedFrom s fuel met rest
    else
      let parts := ((s.cell? a).map fun c => c.items.filterMap Item.address?).getD []
      reachedFrom s fuel (met ++ [a]) (parts ++ rest)

/-- The addresses that can be reached from an item. -/
def reached (s : Store) (i : Item) : List Nat :=
  let links := s.cells.foldl (fun n c => n + c.items.length) 0
  s.reachedFrom (links + 2) [] i.address?.toList

/-- The item that takes the place of another in a copy of cells, where the
copies of the cells at the addresses `old` begin at the address `base`. -/
def moved (base : Nat) (old : List Nat) : Item → Item
  | .scalar x => .scalar x
  | .object a => .object (base + old.idxOf a)

/-- A copy of an item that shares nothing with it.  What is one object within
the item is one object within the copy. -/
def copy (s : Store) (i : Item) : Item × Store :=
  let old := s.reached i
  let new := old.filterMap fun a => (s.cell? a).map (·.map (moved s.size old))
  (moved s.size old i, { s with cells := s.cells ++ new.toArray })

end Store

end Winnow
