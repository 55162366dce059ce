/-
Winnow/Path.lean

Paths of files.

A name is a row of bytes, and a path is the names from the outermost folder to
a place.  A path is given in a text or in bytes, with slashes between its names
(`PathText`).  It begins at the outermost folder if it begins with a slash, and
otherwise at the folder in which one works.  One dot stands for the folder
itself, and two dots for the folder around it (`Path.follow`).
-/
import Winnow.Text.Split
import Winnow.Text.Quoted
import Winnow.Text.Utf8

namespace Winnow

/-! ### Names -/

/-- The name of a file or a folder: its bytes. -/
abbrev FileName := List UInt8

/-- The byte between names. -/
def slash : UInt8 := 0x2F

/-- The name that is written as a text. -/
def FileName.ofText (s : String) : FileName := Text.textBytes s

/-- The name that stands for the folder itself. -/
def FileName.here : FileName := .ofText "."

/-- The name that stands for the folder around. -/
def FileName.up : FileName := .ofText ".."

/-! ### Paths -/

/-- A path: the names from the outermost folder to a place. -/
abbrev Path := List FileName

namespace Path

/-- The place that one comes to from a folder by a name. -/
def enter (p : Path) (name : FileName) : Path :=
  if name = .up then p.dropLast else p ++ [name]

/-- The place that one comes to from a folder by names.  Two dots undo the name
before them, whatever it leads to; above the outermost folder there is nothing
else. -/
def follow (start : Path) (names : List FileName) : Path := names.foldl enter start

/-- A path written with slashes. -/
def written (p : Path) : List UInt8 :=
  if p.isEmpty then [slash] else p.flatMap fun name => slash :: name

end Path

/-! ### Paths as they are given -/

/-- A path in a text or in bytes. -/
inductive PathText
  | text (s : String)
  | bytes (bs : List UInt8)
  deriving DecidableEq, Repr

namespace PathText

/-- The bytes of a path. -/
def raw : PathText → List UInt8
  | text s => Text.textBytes s
  | bytes bs => bs

/-- A path between quotation marks. -/
def quoted : PathText → String
  | text s => Text.quoted s
  | bytes bs => Text.quotedBytes bs

/-- A path in a text or in bytes, as another one is. -/
def like : PathText → List UInt8 → PathText
  | text _, bs => text (Text.textOfBytes bs)
  | bytes _, bs => bytes bs

/-- Whether a path begins at the outermost folder. -/
def isAbsolute (t : PathText) : Bool := t.raw.head? == some slash

/-- Whether a path begins with exactly two slashes. -/
def hasTwoSlashes (t : PathText) : Bool := (t.raw.takeWhile (· == slash)).length == 2

/-- The names in a path.  What stands for the folder itself is left out. -/
def names (t : PathText) : List FileName :=
  (Text.splitAt slash t.raw).filter fun name => !name.isEmpty && name != .here

end PathText

end Winnow
