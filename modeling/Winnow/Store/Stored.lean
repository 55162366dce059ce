/-
Winnow/Store/Stored.lean

Items together with their store, as values.

Such a value may be a part of itself.  Its text then has a mark in the place of
every object that lies within itself (`Store.nestedTextTo`), and its shape is
that of any other value.
-/
import Winnow.Store.Basic
import Winnow.Value.Shape

namespace Winnow

namespace Store

/-- What is written in the place of an object of a kind within itself. -/
def againText : Kind → String
  | .tuple => "(...)"
  | .mapping => "\x7b...\x7d"
  | _ => "[...]"

/-- The text of an item inside another text, where the item lies within the
objects at the addresses `around`, down to a depth. -/
def nestedTextTo (s : Store) : (depth : Nat) → (around : List Nat) → Item → String
  | _, _, .scalar x => x.nestedText
  | 0, _, .object _ => Scalar.null.nestedText
  | depth + 1, around, .object a =>
    if around.contains a then againText (s.kind (.object a))
    else
      let part := s.nestedTextTo depth (a :: around)
      match s.cell? a with
      | some (.list items) => Value.listText (items.map part)
      | some (.tuple items) => Value.tupleText (items.map part)
      | some (.mapping entries) =>
        Value.mappingText (entries.map fun (k, v) => Value.entryText k.nestedText (part v))
      | some (.set members) => Value.setText (members.map Value.nestedText)
      | none => Scalar.null.nestedText

/-- The text of an item inside another text.  Objects that do not lie within
themselves go no deeper than there are cells. -/
def nestedText (s : Store) (i : Item) : String := s.nestedTextTo (s.size + 1) [] i

/-- Whether the scalars and keys in a cell can be written in a message. -/
def cellIsWritable : Cell → Bool
  | .list items => items.all fun i => i.scalar?.all Scalar.isWritable
  | .tuple items => items.all fun i => i.scalar?.all Scalar.isWritable
  | .mapping entries => entries.all fun (k, v) =>
    k.isWritable && v.scalar?.all Scalar.isWritable
  | .set members => members.all Value.isWritable

end Store

/-- An item and the store in which its address is good. -/
structure Stored where
  store : Store
  item : Item

namespace Stored

/-- A value in a store of its own. -/
def ofValue (v : Value) : Stored :=
  let (item, store) := Store.empty.place v
  ⟨store, item⟩

/-- The value of a stored item. -/
def value (x : Stored) : Value := x.store.view x.item

/-- Whether a stored item is neither a part of itself nor has a part that is. -/
def isFinite (x : Stored) : Bool := x.store.endsWithin (x.store.size + 1) x.item

/-- Another item in the same store. -/
def other (x : Stored) (i : Item) : Stored := ⟨x.store, i⟩

/-- What is seen of a stored item. -/
def shape (x : Stored) : Shape Stored :=
  match x.item with
  | .scalar s => .scalar s
  | .object a => match x.store.cell? a with
    | some (.list items) => .list (items.map x.other)
    | some (.tuple items) => .tuple (items.map x.other)
    | some (.mapping entries) => .mapping (entries.map fun (k, v) => (k, x.other v))
    | some (.set members) => .set members
    | none => .scalar .null

/-- The text of a stored item alone. -/
def aloneText (x : Stored) : String :=
  match x.item with
  | .scalar s => s.aloneText
  | i => x.store.nestedText i

/-- Whether a stored item can be written in a message. -/
def isWritable (x : Stored) : Bool :=
  x.item.scalar?.all Scalar.isWritable
    && (x.store.reached x.item).all fun a => (x.store.cell? a).all Store.cellIsWritable

instance : Shaped Stored := ⟨shape, aloneText, isWritable⟩

end Stored

end Winnow
