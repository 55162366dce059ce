/-
Winnow/Yaml/Fault.lean

Why a file cannot be read as a YAML document: its form is wrong
(`Fault.malformed`), a scalar with a tag for numbers, truth values or times does
not hold one, or the file holds no text.
-/
import Winnow.Calendar
import Winnow.Decimal.Numeral
import Winnow.Text.Quoted
import Winnow.Text.Utf8

namespace Winnow.Yaml

/-- Why a document cannot be read. -/
inductive Fault
  /-- The text breaks the rules of the language. -/
  | malformed
  /-- A character escape names no character. -/
  | noCharacter
  /-- A character escape names a number too large for a code. -/
  | hugeCharacter
  /-- A number without a single character. -/
  | emptyNumber
  | badInteger (base : Nat) (text : String)
  | longInteger (count : Nat)
  | badFloat (text : String)
  /-- A number with so many parts that a power of sixty is too large. -/
  | hugeFloat
  | badTruth (word : String)
  /-- A text with the tag of times that does not have their form. -/
  | badTime
  /-- A collection where the text of a time is wanted. -/
  | timeNotText
  | calendar (fault : CalendarFault)
  /-- The bytes of the file are no text. -/
  | notText (fault : Text.Utf8Fault)
  deriving DecidableEq, Repr

namespace Fault

/-- The most characters of a text that are quoted when it is no integer. -/
def quoteLimit : Nat := 200

/-- What is said about a fault.  Nothing is said here about a text that breaks
the rules of the language. -/
def message : Fault → String
  | malformed => ""
  | noCharacter => "chr() arg not in range(0x110000)"
  | hugeCharacter => "Python int too large to convert to C int"
  | emptyNumber => "string index out of range"
  | badInteger base text =>
    s!"invalid literal for int() with base {base}: "
      ++ String.ofList ((Text.quoted text).toList.take quoteLimit)
  | longInteger count =>
    s!"Exceeds the limit ({Decimal.digitLimit} digits) for integer string conversion: "
      ++ s!"value has {count} digits; use sys.set_int_max_str_digits() to increase the limit"
  | badFloat text => "could not convert string to float: " ++ Text.quoted text
  | hugeFloat => "int too large to convert to float"
  | badTruth word => Text.quoted word
  | badTime => "'NoneType' object has no attribute 'groupdict'"
  | timeNotText => "expected string or bytes-like object, got 'list'"
  | calendar fault => fault.message
  | notText fault => fault.message

end Fault

end Winnow.Yaml
