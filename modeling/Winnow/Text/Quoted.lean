/-
Winnow/Text/Quoted.lean

Quoted text, the form in which a text appears inside the text of a compound
value.  The quotation mark is the apostrophe, unless the text holds an
apostrophe and no double quote.  A backslash stands before the quotation mark
and before itself; tab, line feed and carriage return have a letter, and every
other character that is not printable is written by its code in two, four or
eight hexadecimal digits, as few as hold it.

Bytes are quoted by the same rule with the letter `b` in front; there only the
printable ASCII characters stand for themselves.
-/
import Winnow.Text.Printable

namespace Winnow.Text

/-- The apostrophe. -/
def apostrophe : Char := Char.ofNat 0x27

/-- The double quotation mark. -/
def doubleQuote : Char := Char.ofNat 0x22

/-- The lowest `width` hexadecimal digits of a number, the highest first. -/
def hexDigits : (width : Nat) → Nat → List Char
  | 0, _ => []
  | width + 1, n => hexDigits width (n / 16) ++ [Nat.digitChar (n % 16)]

/-- The quotation mark for a text: the apostrophe where that saves escapes. -/
def quoteMark (cs : List Char) : Char :=
  if cs.contains apostrophe && !cs.contains doubleQuote then doubleQuote else apostrophe

/-- The code of a character behind a backslash. -/
def codeEscape (n : Nat) : List Char :=
  if n < 0x100 then '\\' :: 'x' :: hexDigits 2 n
  else if n < 0x10000 then '\\' :: 'u' :: hexDigits 4 n
  else '\\' :: 'U' :: hexDigits 8 n

/-- What is written for a character between quotation marks, where `plain`
says which characters stand for themselves. -/
def escapeWith (plain : Char → Bool) (mark c : Char) : List Char :=
  if c = mark || c = '\\' then ['\\', c]
  else if c = '\t' then ['\\', 't']
  else if c = '\n' then ['\\', 'n']
  else if c = '\r' then ['\\', 'r']
  else if plain c then [c]
  else codeEscape c.toNat

/-- A text between quotation marks. -/
def quoted (s : String) : String :=
  let mark := quoteMark s.toList
  String.ofList (mark :: s.toList.flatMap (escapeWith isPrintable mark) ++ [mark])

/-- Bytes between quotation marks. -/
def quotedBytes (bytes : List UInt8) : String :=
  let cs := bytes.map fun b => Char.ofNat b.toNat
  let mark := quoteMark cs
  let plain (c : Char) : Bool := 0x20 ≤ c.toNat && c.toNat < 0x7F
  String.ofList ('b' :: mark :: cs.flatMap (escapeWith plain mark) ++ [mark])

end Winnow.Text
