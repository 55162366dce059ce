/-
Winnow/Store/Element.lean

Parts of objects by keys and positions, and changes of them.

A mapping has parts under keys; a list, a tuple, a text and bytes have them at
positions.  A position may be negative and then counts from the end, and it
has to fit a word.  The parts of lists and mappings can be changed, and no
others.
-/
import Winnow.Store.Basic
import Winnow.Value.Text

namespace Winnow

/-- Why an object has no such part, or it cannot be changed. -/
inductive ElementFault
  | noKey (key : Value)
  | noHash (kind : Kind)
  /-- The position lies outside the object. -/
  | outside (kind : Kind) (assigned : Bool)
  /-- The position does not fit a word. -/
  | noWord (kind : Kind)
  | noPosition (kind key : Kind)
  | noParts (kind : Kind)
  | fixed (kind : Kind)

namespace ElementFault

/-- What is said about a position outside an object of a kind. -/
def outsideText : Kind → String
  | .text => "string index out of range"
  | .bytes => "index out of range"
  | kind => kind.name ++ " index out of range"

/-- What is said about a key that is no position in an object of a kind. -/
def noPositionText (key : Kind) : Kind → String
  | .text => s!"string indices must be integers, not '{key.fullName}'"
  | .bytes => s!"byte indices must be integers or slices, not {key.fullName}"
  | kind => s!"{kind.name} indices must be integers or slices, not {key.fullName}"

/-- What is said about a fault. -/
def message : ElementFault → String
  | noKey key => key.nestedText
  | noHash kind => s!"unhashable type: '{kind.fullName}'"
  | outside kind false => outsideText kind
  | outside kind true => kind.name ++ " assignment index out of range"
  | noWord kind => s!"cannot fit '{kind.fullName}' into an index-sized integer"
  | noPosition kind key => noPositionText key kind
  | noParts kind => s!"'{kind.fullName}' object is not subscriptable"
  | fixed kind => s!"'{kind.fullName}' object does not support item assignment"

end ElementFault

namespace Store

/-- Whether a number fits a signed word. -/
def fitsWord (n : Int) : Bool := -0x8000000000000000 ≤ n && n < 0x8000000000000000

/-- The position that a value means among `count` parts of an object of a kind,
of which one is read or `assigned`. -/
def position (kind : Kind) (assigned : Bool) (count : Nat) (key : Value) :
    Except ElementFault Nat :=
  match key with
  | .scalar s => match s.whole? with
    | none => .error (.noPosition kind key.kind)
    | some n =>
      if !fitsWord n then .error (.noWord key.kind)
      else
        let n := if n < 0 then n + count else n
        if n < 0 || (count : Int) ≤ n then .error (.outside kind assigned) else .ok n.toNat
  | v => .error (.noPosition kind v.kind)

/-- The item at the position that a value means in an object of a kind. -/
def itemAt (kind : Kind) (items : List Item) (key : Value) : Except ElementFault Item := do
  let n ← position kind false items.length key
  .ok ((items[n]?).getD .null)

/-- The part of an item under a key or at a position. -/
def element (s : Store) (i : Item) (key : Value) : Except ElementFault Item :=
  match i with
  | .scalar (.text t) =>
    itemAt .text (t.toList.map fun c => .scalar (.text (String.singleton c))) key
  | .scalar (.bytes bs) => itemAt .bytes (bs.map fun b => .scalar (.integer b.toNat)) key
  | .scalar x => .error (.noParts x.kind)
  | .object address => match s.cell? address with
    | some (.mapping entries) =>
      match key.unhashable? with
      | some kind => .error (.noHash kind)
      | none => match Entries.find? key entries with
        | some item => .ok item
        | none => .error (.noKey key)
    | some (.list items) => itemAt .list items key
    | some (.tuple items) => itemAt .tuple items key
    | _ => .error (.noParts (s.kind i))

/-- Changes the part of an item under a key or at a position. -/
def setElement (s : Store) (i : Item) (key : Value) (value : Item) : Except ElementFault Store :=
  match i.address?, i.address?.bind s.cell? with
  | some address, some (.mapping entries) =>
    match key.unhashable? with
    | some kind => .error (.noHash kind)
    | none => .ok (s.put address (.mapping (Entries.insert key value entries)))
  | some address, some (.list items) => do
    let n ← position .list true items.length key
    .ok (s.put address (.list (items.set n value)))
  | _, _ => .error (.fixed (s.kind i))

/-- Changes the part of an item at the end of a path. -/
def setAt (s : Store) (i : Item) (value : Item) : List Value → Except ElementFault Store
  | [] => .ok s
  | [last] => s.setElement i last value
  | key :: rest => do
    let next ← s.element i key
    s.setAt next value rest

end Store

end Winnow
