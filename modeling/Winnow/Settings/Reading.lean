/-
Winnow/Settings/Reading.lean

The value that a text stands for where only texts can be given: a truth value
by one of four words in any case, an integer, a floating-point number, or the
text itself.
-/
import Winnow.Text.Case
import Winnow.Decimal.Numeral
import Winnow.Value.Basic

namespace Winnow.Setting

/-- The words for yes. -/
def yesWords : List String := ["true", "yes"]

/-- The words for no. -/
def noWords : List String := ["false", "no"]

/-- The number that a text stands for. -/
def readNumber (s : String) : Scalar :=
  match Decimal.readInteger 10 s.toList with
  | .ok n => .integer n
  | .error _ => match Decimal.readFloat? s.toList with
    | some x => .ofFloat Scalar.commonMark x
    | none => .text s

/-- The value that a text stands for. -/
def read (s : String) : Scalar :=
  let word := Text.lower s
  if yesWords.contains word then .truth true
  else if noWords.contains word then .truth false
  else readNumber s

end Winnow.Setting
