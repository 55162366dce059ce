/-
Winnow/Yaml/Tag.lean

The types of nodes, and the forms of plain scalars that have one.

A plain scalar is a truth value, a number, a date or nothing when it has the
form of one, and otherwise a text (`Tag.ofPlain`).  The words `yes`, `no`,
`on` and `off` are truth values, as values and as keys alike.
-/
import Winnow.Text.Pattern

namespace Winnow.Yaml

open Winnow.Text (Pattern)

/-- The type of a node. -/
inductive Tag
  | null
  | truth
  | integer
  | float
  | text
  | bytes
  | time
  | sequence
  | mapping
  | set
  | orderedMapping
  | pairs
  /-- The key that merges other mappings into its own. -/
  | merge
  /-- The key of the value that stands for a whole mapping. -/
  | standIn
  | other
  deriving DecidableEq, Repr

namespace Tag

/-! ### Forms -/

/-- An optional sign. -/
def sign : Pattern := .optional (.charOf "+-")

/-- Digits and underscores, a digit first. -/
def digitRun : Pattern := .row .digit (.repeated (.one fun c => c.isDigit || c == '_'))

/-- Further digits in base sixty, each behind a colon. -/
def sixties : Pattern :=
  .atLeastOnce (.inRow [.exactly ':', .optional (.charOf "012345"), .digit])

/-- The exponent of a number. -/
def exponent : Pattern := .inRow [.charOf "eE", .charOf "+-", .atLeastOnce .digit]

/-- A point with digits behind it. -/
def fraction : Pattern := .row (.exactly '.') (.repeated (.one fun c => c.isDigit || c == '_'))

/-- The words for truth values, in their three spellings. -/
def truthForm : Pattern :=
  .anyWord ["yes", "Yes", "YES", "no", "No", "NO", "true", "True", "TRUE",
    "false", "False", "FALSE", "on", "On", "ON", "off", "Off", "OFF"]

/-- Floating-point numbers. -/
def floatForm : Pattern :=
  .anyOf [
    .inRow [sign, digitRun, fraction, .optional exponent],
    .inRow [.exactly '.', digitRun, .optional exponent],
    .inRow [sign, digitRun, sixties, fraction],
    .row sign (.anyWord [".inf", ".Inf", ".INF"]),
    .anyWord [".nan", ".NaN", ".NAN"]]

/-- A digit of base sixteen. -/
def isHexDigit (c : Char) : Bool :=
  c.isDigit || ('a' ≤ c && c ≤ 'f') || ('A' ≤ c && c ≤ 'F')

/-- A digit from one to nine, and more digits and underscores. -/
def leadingRun : Pattern :=
  .row (.charOf "123456789") (.repeated (.one fun c => c.isDigit || c == '_'))

/-- Integers in base two, eight, ten, sixteen and sixty. -/
def integerForm : Pattern :=
  .anyOf [
    .inRow [sign, .word "0b", .atLeastOnce (.charOf "01_")],
    .inRow [sign, .exactly '0', .atLeastOnce (.charOf "01234567_")],
    .row sign (.choice (.exactly '0') leadingRun),
    .inRow [sign, .word "0x", .atLeastOnce (.one fun c => isHexDigit c || c == '_')],
    .inRow [sign, leadingRun, sixties]]

/-- Nothing. -/
def nullForm : Pattern := .anyWord ["~", "null", "Null", "NULL", ""]

/-- Blanks. -/
def blanks : Pattern := .repeated (.charOf " \t")

/-- The offset of a time. -/
def zoneForm : Pattern :=
  .choice (.exactly 'Z')
    (.inRow [.charOf "+-", .oneOrTwoDigits, .optional (.row (.exactly ':') (.digits 2))])

/-- The clock of a time. -/
def clockForm : Pattern :=
  .inRow [.oneOrTwoDigits, .exactly ':', .digits 2, .exactly ':', .digits 2,
    .optional (.row (.exactly '.') (.repeated .digit)), .optional (.row blanks zoneForm)]

/-- Dates, and times with a clock. -/
def timeForm : Pattern :=
  .choice
    (.inRow [.digits 4, .exactly '-', .digits 2, .exactly '-', .digits 2])
    (.inRow [.digits 4, .exactly '-', .oneOrTwoDigits, .exactly '-', .oneOrTwoDigits,
      .choice (.charOf "Tt") (.row (.charOf " \t") blanks), clockForm])

/-- The forms with a type, the first that fits being the one that counts. -/
def forms : List (Pattern × Tag) :=
  [(truthForm, truth), (floatForm, float), (integerForm, integer), (.word "<<", merge),
   (nullForm, null), (timeForm, time), (.word "=", standIn), (.charOf "!&*", other)]

/-! ### Types of nodes -/

/-- A text without one line feed at its end. -/
def dropLastBreak (text : List Char) : List Char :=
  if text.getLast? = some '\n' then text.dropLast else text

/-- The type of a plain scalar.  A line feed at its end does not count. -/
def ofPlain (text : List Char) : Tag :=
  if text = ['\n'] then .text
  else (((forms.find? fun f => f.1.accepts (dropLastBreak text)).map (·.2))).getD .text

/-- The types with their tags. -/
def named : List (String × Tag) :=
  [("null", null), ("bool", truth), ("int", integer), ("float", float), ("str", .text),
   ("binary", bytes), ("timestamp", time), ("seq", sequence), ("map", mapping), ("set", set),
   ("omap", orderedMapping), ("pairs", pairs), ("merge", merge), ("value", standIn)]

/-- What the tags of the named types begin with. -/
def nameSpace : String := "tag:yaml.org,2002:"

/-- The type with a tag. -/
def ofName (name : String) : Tag :=
  ((named.find? fun p => nameSpace ++ p.1 == name).map (·.2)).getD other

end Tag

end Winnow.Yaml
