/-
Winnow/Text/Split.lean

The parts of a text between separators.
-/

namespace Winnow.Text

/-- The parts of a row at a separator: at least one, perhaps empty. -/
def splitAt {α : Type} [DecidableEq α] (separator : α) : List α → List (List α)
  | [] => [[]]
  | c :: cs =>
    if c = separator then [] :: splitAt separator cs
    else match splitAt separator cs with
      | [] => [[c]]
      | first :: rest => (c :: first) :: rest

/-- The parts of a text at a separator. -/
def parts (separator : Char) (s : String) : List String :=
  (splitAt separator s.toList).map String.ofList

end Winnow.Text
