/-
Winnow/Text/Case.lean

Lower and upper case of text, by Unicode 14.

Lowering works on whole texts, for two reasons.  The capital I with a dot
becomes two characters, and the capital sigma becomes the final form at the
end of a word and the medial form elsewhere.  A sigma ends a word when the
nearest character before it that is not passed over is cased, and the nearest
such character after it is not.

Beyond these two cases lowering goes character by character
(`lowerChar`), and on ASCII it is the change of the twenty-six letters.
-/
import Winnow.Text.CaseTable

namespace Winnow.Text

/-! ### Single characters -/

/-- The lower case of a character, where that is one character. -/
def lowerChar (c : Char) : Char :=
  if c.toNat < 0x80 then c.toLower
  else ((CaseRun.image? lowerRuns c.toNat).map Char.ofNat).getD c

/-- The upper case of a character. -/
def upperChar (c : Char) : List Char :=
  if c.toNat < 0x80 then [c.toUpper]
  else match upperExpansions.lookup c.toNat with
    | some codes => codes.map Char.ofNat
    | none => [((CaseRun.image? upperRuns c.toNat).map Char.ofNat).getD c]

/-- Whether a character has a case. -/
def isCased (c : Char) : Bool :=
  if c.toNat < 0x80 then c.isAlpha else casedRanges.covers c.toNat

/-- Whether a character is passed over when the neighbours of a letter are
looked for. -/
def isCaseIgnorable (c : Char) : Bool :=
  if c.toNat < 0x80 then c.toNat == 0x27 || c == '.' || c == ':' || c == '^' || c.toNat == 0x60
  else caseIgnorableRanges.covers c.toNat

/-! ### Texts -/

/-- The capital sigma. -/
def capitalSigma : Char := 'Σ'

/-- The capital I with a dot above. -/
def capitalDottedI : Char := 'İ'

/-- Whether the nearest character that is not passed over is cased. -/
def meetsCased (cs : List Char) : Bool :=
  ((cs.dropWhile isCaseIgnorable).head?.map isCased).getD false

/-- Whether a sigma between two texts, the first given backwards, ends a word. -/
def endsWord (before after : List Char) : Bool :=
  meetsCased before && !meetsCased after

/-- The lower case of one character between two texts, the first given
backwards. -/
def lowerWithin (before : List Char) (c : Char) (after : List Char) : List Char :=
  if c = capitalSigma then [if endsWord before after then 'ς' else 'σ']
  else if c = capitalDottedI then ['i', '\u0307']
  else [lowerChar c]

/-- The lower case of the rest of a text whose beginning, read backwards, is
`before`. -/
def lowerFrom (before : List Char) : List Char → List Char
  | [] => []
  | c :: rest => lowerWithin before c rest ++ lowerFrom (c :: before) rest

/-- The lower case of a text. -/
def lower (s : String) : String := String.ofList (lowerFrom [] s.toList)

/-- The upper case of a text. -/
def upper (s : String) : String := String.ofList (s.toList.flatMap upperChar)

end Winnow.Text
