/-
Winnow/Value/Text.lean

The text of values in messages.  A text stands alone as it is, and between
quotation marks inside a compound value; every other value is written the same
way in both places, except that dates, times, attributes, operations and
levels have a longer form inside.

Messages hold no integer of more than `digitLimit` digits: a value with one in
it cannot be written (`Value.isWritable`).
-/
import Winnow.Value.Basic
import Winnow.Text.Quoted
import Winnow.Decimal.Notation
import Winnow.Decimal.Numeral

namespace Winnow

open Winnow.Text (quoted quotedBytes)

/-- The least natural number that is too long for a message. -/
def integerBound : Nat := Decimal.tenTo Decimal.digitLimit

/-- What is said where an integer is too long for a message. -/
def longIntegerText : String :=
  s!"Exceeds the limit ({Decimal.digitLimit} digits) for integer string conversion; "
    ++ "use sys.set_int_max_str_digits() to increase the limit"

/-- A truth value. -/
def truthText (b : Bool) : String := if b then "True" else "False"

/-- An attribute inside another text, with what it reads. -/
def Attribute.nestedText (a : Attribute) : String :=
  s!"<ResourceAttribute.{a.label}: ({quoted a.facet.label}, {truthText a.ignoresCase})>"

/-- An operation inside another text, with its word. -/
def Operation.nestedText (o : Operation) : String :=
  s!"<StringOperation.{o.label}: {quoted o.word}>"

/-- A level inside another text, with its number. -/
def Log.Level.nestedText (l : Log.Level) : String := s!"<LogLevel.{l.name}: {l.number}>"

/-- The text of a scalar inside another text. -/
def Scalar.nestedText : Scalar → String
  | .null => "None"
  | .truth b => truthText b
  | .integer n => toString n
  | .float x => Decimal.floatText x
  | .nan _ => Decimal.nanText
  | .text s => quoted s
  | .bytes bs => quotedBytes bs
  | .date d => d.nestedText
  | .time t => t.nestedText
  | .level l => l.nestedText
  | .attribute a => a.nestedText
  | .operation o => o.nestedText

/-- The text of a scalar alone. -/
def Scalar.aloneText : Scalar → String
  | .text s => s
  | .date d => d.text
  | .time t => t.text
  | .level l => toString l.number
  | .attribute a => "ResourceAttribute." ++ a.label
  | .operation o => "StringOperation." ++ o.label
  | s => s.nestedText

/-- Whether a scalar can be written in a message. -/
def Scalar.isWritable : Scalar → Bool
  | .integer n => n.natAbs < integerBound
  | _ => true

namespace Value

mutual
/-- Whether a value can be written in a message. -/
def isWritable : Value → Bool
  | scalar s => s.isWritable
  | list items => areWritable items
  | tuple items => areWritable items
  | mapping entries => entriesAreWritable entries
  | set members => areWritable members

/-- Whether every value can be written in a message. -/
def areWritable : List Value → Bool
  | [] => true
  | v :: vs => isWritable v && areWritable vs

/-- Whether the keys and values of entries can be written in a message. -/
def entriesAreWritable : List (Value × Value) → Bool
  | [] => true
  | (k, v) :: rest => isWritable k && isWritable v && entriesAreWritable rest
end

/-- A row of texts between two marks. -/
def enclosed (left right : String) (parts : List String) : String :=
  left ++ ", ".intercalate parts ++ right

/-- The text of a list whose items have the given texts. -/
def listText (items : List String) : String := enclosed "[" "]" items

/-- The text of a tuple whose items have the given texts: a single one has a
comma behind it. -/
def tupleText : List String → String
  | [item] => "(" ++ item ++ ",)"
  | items => enclosed "(" ")" items

/-- The text of an entry whose key and value have the given texts. -/
def entryText (key value : String) : String := key ++ ": " ++ value

/-- The text of a mapping whose entries have the given texts. -/
def mappingText (entries : List String) : String := enclosed "\x7b" "\x7d" entries

/-- The text of a set whose members have the given texts. -/
def setText : List String → String
  | [] => "set()"
  | members => enclosed "\x7b" "\x7d" members

mutual
/-- The text of a value inside another text. -/
def nestedText : Value → String
  | scalar s => s.nestedText
  | list items => listText (nestedTexts items)
  | tuple items => tupleText (nestedTexts items)
  | mapping entries => mappingText (entryTexts entries)
  | set members => setText (nestedTexts members)

/-- The texts of values inside another text. -/
def nestedTexts : List Value → List String
  | [] => []
  | v :: vs => nestedText v :: nestedTexts vs

/-- The texts of the entries of a mapping. -/
def entryTexts : List (Value × Value) → List String
  | [] => []
  | (k, v) :: rest => entryText (nestedText k) (nestedText v) :: entryTexts rest
end

/-- The text of a value alone. -/
def aloneText : Value → String
  | scalar s => s.aloneText
  | v => v.nestedText

end Value

end Winnow
