/-
Winnow/Value/Shape.lean

What is seen of a value from outside: a scalar, or the parts of a list, a
tuple, a mapping or a set, whatever the parts are.

Values that are trees and values that share parts show the same shapes
(`Shaped`).  What is written for shapes reads both, and goes only as deep as it
looks, so that it also reads a value that is a part of itself.
-/
import Winnow.Value.Text

namespace Winnow

/-- What is seen of a value whose parts are of a type. -/
inductive Shape (α : Type)
  | scalar (s : Scalar)
  | list (items : List α)
  | tuple (items : List α)
  | mapping (entries : List (Value × α))
  | set (members : List Value)

namespace Shape

variable {α : Type}

/-- The kind of a value of a shape. -/
def kind : Shape α → Kind
  | scalar s => s.kind
  | list _ => .list
  | tuple _ => .tuple
  | mapping _ => .mapping
  | set _ => .set

/-- Whether a value of a shape counts as empty. -/
def isEmpty : Shape α → Bool
  | scalar s => s.isEmpty
  | list items => items.isEmpty
  | tuple items => items.isEmpty
  | mapping entries => entries.isEmpty
  | set members => members.isEmpty

/-- The text of a shape that is one. -/
def text? : Shape α → Option String
  | scalar (.text s) => some s
  | _ => none

end Shape

/-- Values of which the shape can be seen and the text be written. -/
class Shaped (α : Type) where
  /-- What is seen of a value. -/
  shape : α → Shape α
  /-- The text of a value alone. -/
  aloneText : α → String
  /-- Whether a value can be written in a message. -/
  isWritable : α → Bool

namespace Value

/-- What is seen of a value. -/
def shape : Value → Shape Value
  | scalar s => .scalar s
  | list items => .list items
  | tuple items => .tuple items
  | mapping entries => .mapping entries
  | set members => .set members

instance : Shaped Value := ⟨shape, aloneText, isWritable⟩

@[simp] theorem kind_shape (v : Value) : v.shape.kind = v.kind := by cases v <;> rfl

@[simp] theorem isEmpty_shape (v : Value) : v.shape.isEmpty = v.isEmpty := by cases v <;> rfl

@[simp] theorem text?_shape (v : Value) : v.shape.text? = v.text? := by
  cases v with
  | scalar s => cases s <;> rfl
  | _ => rfl

end Value

end Winnow
