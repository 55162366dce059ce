/-
Winnow/Yaml/Supply.lean

The text of a file as far as it can be read.

A document is read from its file `loadSize` characters at a time, and no further
than its tokens are looked at.  So a fault in the file counts only when nothing
in front of it is wrong with the document: the supply is the text before that
fault, with the fault behind it.
-/
import Winnow.Text.Intake
import Winnow.Yaml.Cursor

namespace Winnow.Yaml

/-- A text as far as it can be read. -/
structure Supply where
  text : List Char
  /-- Why nothing can be read behind the text, if it does not end there. -/
  ending : Option Fault
  deriving Repr

namespace Supply

/-- A text that can be read to its end. -/
def whole (text : List Char) : Supply := ⟨text, none⟩

/-- No text, but a fault. -/
def failed (f : Fault) : Supply := ⟨[], some f⟩

/-- How many characters are read at once. -/
def loadSize : Nat := 4096

/-- Puts characters in front of a supply, if all of them may stand in a
document. -/
def behind (cs : List Char) (rest : Supply) : Supply :=
  if cs.all isAllowed then ⟨cs ++ rest.text, rest.ending⟩ else failed .malformed

/-- The rest of a file. -/
def loads : (fuel : Nat) → Text.Intake → Supply
  | 0, _ => whole []
  | fuel + 1, i => match i.read loadSize with
    | .error f => failed (.notText f)
    | .ok ([], _) => whole []
    | .ok (cs, i) => (loads fuel i).behind cs

/-- The first characters of a file: after at least two of them one more load, if
there is one. -/
def firstLoad : (fuel : Nat) → (before : List Char) → Text.Intake →
    Except Text.Utf8Fault (List Char × Text.Intake)
  | 0, before, i => .ok (before, i)
  | fuel + 1, before, i => do
    let (cs, i) ← i.read loadSize
    if cs.isEmpty || 2 ≤ before.length then .ok (before ++ cs, i)
    else firstLoad fuel (before ++ cs) i

/-- The text of a file. -/
def ofBytes (bytes : List UInt8) : Supply :=
  match firstLoad (bytes.length + 1) [] (.start bytes) with
  | .error f => failed (.notText f)
  | .ok (cs, i) => (loads (bytes.length + 1) i).behind cs

end Supply

end Winnow.Yaml
