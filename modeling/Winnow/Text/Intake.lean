/-
Winnow/Text/Intake.lean

A text file that is read a number of characters at a time.

Its bytes are taken in pieces, and only when characters are wanted that are not
there yet.  A piece has `leastPiece` bytes, or as many as the characters that are
wanted should need, judged by the piece before.  What a piece leaves open goes
to the next one: the bytes of a character cut off at its end, and a carriage
return, which may be half of a line end.  So a fault far behind in a file shows
late, and its position counts from the beginning of its piece.
-/
import Winnow.Text.Utf8

namespace Winnow.Text

/-- A text file that is being read. -/
structure Intake where
  /-- The bytes that have not been taken. -/
  bytes : List UInt8
  /-- The bytes of a character that was cut off. -/
  carried : List UInt8
  /-- Whether a carriage return waits for what comes behind it. -/
  holdsReturn : Bool
  /-- The characters that are there and have not been read. -/
  ready : List Char
  /-- How many bytes the piece before had. -/
  byteCount : Nat
  /-- How many characters the piece before had. -/
  charCount : Nat

namespace Intake

/-- The beginning of a file. -/
def start (bytes : List UInt8) : Intake := ⟨bytes, [], false, [], 0, 0⟩

/-- The least number of bytes that are taken at once. -/
def leastPiece : Nat := 8192

/-- How many bytes are taken at once where a number of characters is wanted. -/
def pieceSize (i : Intake) (wanted : Nat) : Nat :=
  max leastPiece (wanted * i.byteCount / i.charCount)

/-- What the characters of a piece read as, and whether a carriage return is held
back at their end. -/
def settle (holdsReturn isLast : Bool) (cs : List Char) : List Char × Bool :=
  let cs := if holdsReturn && (isLast || !cs.isEmpty) then '\r' :: cs else cs
  if !isLast && cs.getLast? == some '\r' then (unifyLineEnds cs.dropLast, true)
  else (unifyLineEnds cs, holdsReturn && cs.isEmpty)

/-- Takes the next piece, and tells whether there was one. -/
def takePiece (i : Intake) (wanted : Nat) : Except Utf8Fault (Bool × Intake) := do
  let size := i.pieceSize wanted
  let piece := i.bytes.take size
  let isLast := piece.isEmpty
  let bytes := i.carried ++ piece
  let (cs, left) ← decodePiece isLast bytes.length 0 bytes
  if isLast then checkEnd 0 left
  let (ready, holdsReturn) := settle i.holdsReturn isLast cs
  .ok (!isLast, ⟨i.bytes.drop size, left, holdsReturn, ready, piece.length, ready.length⟩)

/-- Reads a number of characters, or fewer at the end of the file, in no more
than `fuel` pieces. -/
def readWithin : (fuel : Nat) → (wanted : Nat) → Intake → Except Utf8Fault (List Char × Intake)
  | 0, _, i => .ok ([], i)
  | fuel + 1, wanted, i => do
    let cs := i.ready.take wanted
    let missing := wanted - cs.length
    let i := { i with ready := i.ready.drop wanted }
    if missing = 0 then .ok (cs, i)
    else
      let (goesOn, i) ← i.takePiece missing
      if goesOn then
        let (more, i) ← readWithin fuel missing i
        .ok (cs ++ more, i)
      else .ok (cs, i)

/-- Reads a number of characters, or fewer at the end of the file. -/
def read (i : Intake) (wanted : Nat) : Except Utf8Fault (List Char × Intake) :=
  readWithin (i.bytes.length + 2) wanted i

end Intake

end Winnow.Text
