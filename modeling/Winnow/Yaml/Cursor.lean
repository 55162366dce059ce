/-
Winnow/Yaml/Cursor.lean

A place in a text: what is left of it, how many characters have been passed,
and the line and the column.

The text ends where no character is left.  Line feed, next line and the line
and paragraph separators break a line; blanks are the space and the tab.  A
byte order mark takes no column.

Where a text is wrong, the fault is kept with the place where it shows
(`Stop`).
-/
import Winnow.Yaml.Fault

namespace Winnow.Yaml

/-! ### Characters -/

/-- The byte order mark. -/
def byteOrderMark : Char := '\uFEFF'

/-- The next-line character, which reads as a line feed. -/
def nextLine : Char := '\u0085'

/-- Whether a character breaks a line. -/
def isBreak (c : Char) : Bool := c == '\n' || c == nextLine || c == '\u2028' || c == '\u2029'

/-- Whether a character is a blank. -/
def isBlank (c : Char) : Bool := c == ' ' || c == '\t'

/-- Whether a place, given by its character if there is one, is the end or a
line break. -/
def endsLine (c : Option Char) : Bool := c.all isBreak

/-- Whether a place is the end, a line break or a space. -/
def endsWord (c : Option Char) : Bool := c.all fun c => isBreak c || c == ' '

/-- Whether a place is the end, a line break or a blank. -/
def endsPlain (c : Option Char) : Bool := c.all fun c => isBreak c || isBlank c

/-- Whether a character may stand in the name of an anchor or a directive. -/
def isNameChar (c : Char) : Bool := c.isAlphanum || c == '-' || c == '_'

/-- Whether a character may stand in a document. -/
def isAllowed (c : Char) : Bool :=
  let n := c.toNat
  n == 0x09 || n == 0x0A || n == 0x0D || (0x20 ≤ n && n ≤ 0x7E) || n == 0x85
    || (0xA0 ≤ n && n ≤ 0xD7FF) || (0xE000 ≤ n && n ≤ 0xFFFD)
    || (0x10000 ≤ n && n ≤ 0x10FFFF)

/-! ### Places -/

/-- A place in a text. -/
structure Cursor where
  rest : List Char
  /-- The characters passed. -/
  index : Nat
  line : Nat
  column : Nat
  deriving Repr

namespace Cursor

/-- The beginning of a text. -/
def start (text : List Char) : Cursor := ⟨text, 0, 0, 0⟩

/-- The character at the place. -/
def char? (c : Cursor) : Option Char := c.rest.head?

/-- The character some places further on. -/
def ahead? (c : Cursor) (n : Nat) : Option Char := (c.rest.drop n).head?

/-- Whether the character at the place is the given one. -/
def isAt (c : Cursor) (x : Char) : Bool := c.char? == some x

/-- The place after the next character. -/
def next (c : Cursor) : Cursor :=
  match c.rest with
  | [] => c
  | x :: rest =>
    if isBreak x then ⟨rest, c.index + 1, c.line + 1, 0⟩
    else if x = byteOrderMark then ⟨rest, c.index + 1, c.line, c.column⟩
    else ⟨rest, c.index + 1, c.line, c.column + 1⟩

/-- The place after the next `n` characters. -/
def skip : Nat → Cursor → Cursor
  | 0, c => c
  | n + 1, c => skip n c.next

/-- The longest run of characters with a property, and the place after it. -/
def span (p : Char → Bool) (c : Cursor) : List Char × Cursor :=
  let run := c.rest.takeWhile p
  (run, c.skip run.length)

/-- The place after the longest run of characters with a property. -/
def skipWhile (p : Char → Bool) (c : Cursor) : Cursor := (c.span p).2

/-- The place after the spaces. -/
def skipSpaces (c : Cursor) : Cursor := c.skipWhile (· == ' ')

/-- The rest of the line, and the place of its break. -/
def restOfLine (c : Cursor) : List Char × Cursor := c.span (!isBreak ·)

/-- A comment is passed over up to the break of its line. -/
def skipComment (c : Cursor) : Cursor := if c.isAt '#' then c.restOfLine.2 else c

/-- What a line break reads as, and the place after it; nothing where there is
no break. -/
def lineBreak (c : Cursor) : List Char × Cursor :=
  match c.char? with
  | some x =>
    if x = '\n' || x = nextLine then (['\n'], c.next)
    else if isBreak x then ([x], c.next)
    else ([], c)
  | none => ([], c)

/-- Whether three marks and then a blank, a break or the end stand here. -/
def hasMarker (c : Cursor) (mark : Char) : Bool :=
  c.rest.take 3 == [mark, mark, mark] && endsPlain (c.ahead? 3)

/-- Whether the line at whose beginning the place is starts or ends a
document. -/
def atDocumentMarker (c : Cursor) : Bool := c.hasMarker '-' || c.hasMarker '.'

/-- Whether nothing is left of the text. -/
def isEnd (c : Cursor) : Bool := c.rest.isEmpty

end Cursor

/-! ### Stops -/

/-- A fault of a text, and the place where it shows. -/
structure Stop where
  fault : Fault
  place : Cursor
  deriving Repr

namespace Cursor

/-- A fault that shows at a place. -/
def stop (c : Cursor) (f : Fault) : Stop := ⟨f, c⟩

/-- The text breaks the rules of the language at a place. -/
def wrong (c : Cursor) : Stop := c.stop .malformed

end Cursor

end Winnow.Yaml
