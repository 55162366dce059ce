/-
Winnow/Predicate/Text.lean

The full text of a predicate: the name of its form with its parts in brackets,
each part under its name.
-/
import Winnow.Predicate.Basic
import Winnow.Value.Text

namespace Winnow

/-- A name with named parts in brackets. -/
def formText (name : String) (parts : List (String × String)) : String :=
  name ++ "(" ++ ", ".intercalate (parts.map fun p => p.1 ++ "=" ++ p.2) ++ ")"

mutual

/-- The full text of a predicate. -/
def Predicate.text : Predicate → String
  | p@(.literal a o s) => formText p.form
      [("attribute", a.nestedText), ("operation", o.nestedText), ("value", Text.quoted s)]
  | p@(.anyOf members) => formText p.form [("predicates", Value.tupleText (memberTexts members))]
  | p@(.negation inner) => formText p.form [("predicate", inner.text)]
  | .chain c => c.text
  | p@(.probe label _) => formText p.form [("label", Text.quoted label)]

/-- The full texts of predicates. -/
def memberTexts : List Predicate → List String
  | [] => []
  | p :: ps => p.text :: memberTexts ps

/-- The full text of a chain. -/
def Chain.text : Chain → String
  | c@(.stage a parent own) => formText (Predicate.chain c).form
      [("attribute", a.nestedText), ("parent", partText parent), ("predicate", partText own)]

/-- The full text of a parent, or of the own predicate of a stage. -/
def partText : Option Predicate → String
  | none => "None"
  | some p => p.text

end

end Winnow
