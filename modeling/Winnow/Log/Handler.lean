/-
Winnow/Log/Handler.lean

Handlers, which take the records of a logger: they keep them, write them to the
console, or write them to a file.

A file handler with a limit and backups gives its file another name before a
line that would bring it to the limit: `f` becomes `f.1`, `f.1` becomes `f.2`,
and so on up to the number of backups (`LogFile.roll`).  Without backups the
file just grows.  Where a file cannot be moved, because a folder has its new
name, the line is lost.
-/
import Winnow.Files
import Winnow.Log.Record

namespace Winnow.Log

/-! ### Files -/

/-- A log file. -/
structure LogFile where
  path : Path
  /-- The limit in bytes; none if it is not positive. -/
  maxBytes : Int
  /-- The number of backups; none if it is not positive. -/
  backups : Int
  /-- The number of the open file. -/
  opened : Option Nat
  deriving Repr

namespace LogFile

/-- The limit where none is given. -/
def defaultMaxBytes : Int := 10 * 1024 * 1024

/-- The number of backups where none is given. -/
def defaultBackups : Int := 5

/-- The last name in the path. -/
def name (l : LogFile) : FileName := (l.path.getLast?).getD []

/-- The path of a backup. -/
def backup (l : LogFile) (n : Nat) : Path :=
  l.path.dropLast ++ [l.name ++ FileName.ofText ("." ++ toString n)]

/-- The whole path to a place as it is shown for a path that was given: two
slashes at its beginning stay two. -/
def wholePath (f : Files) (t : PathText) (path : Path) : PathText :=
  t.like (if t.hasTwoSlashes then slash :: f.shownPath path else f.shownPath path)

/-- Opens the file at a path to write at its end.  The dots in the path are
resolved by their place in it alone. -/
def open? (f : Files) (t : PathText) (maxBytes backups : Int) :
    Except FileFault (LogFile × Files) :=
  let path := f.resolve t
  match (f.reach path).bind f.openToWrite with
  | .ok (number, f) => .ok (⟨path, maxBytes, backups, some number⟩, f)
  | .error cause => .error ⟨cause, wholePath f t path⟩

/-- Opens the file again if it has been closed. -/
def reopen (l : LogFile) (f : Files) : LogFile × Files :=
  match l.opened with
  | some _ => (l, f)
  | none => match (f.reach l.path).bind f.openToWrite with
    | .ok (number, f) => ({ l with opened := some number }, f)
    | .error _ => (l, f)

/-- Moves the backups up by one, from the last but one down, and last the file
itself; says whether all of them could be moved. -/
def shift (l : LogFile) : (count : Nat) → Files → Bool × Files
  | 0, f => match (f.free? (l.backup 1)).bind fun f => f.move? l.path (l.backup 1) with
    | some f => (true, f)
    | none => (false, f)
  | n + 1, f => match f.move? (l.backup (n + 1)) (l.backup (n + 2)) with
    | some f => l.shift n f
    | none => (false, f)

/-- Gives the file the name of the first backup and starts a new one; without
backups the file is only opened again.  It stays closed where a backup cannot be
moved. -/
def roll (l : LogFile) (f : Files) : LogFile × Files :=
  let (moved, f) := if 0 < l.backups then l.shift (l.backups.toNat - 1) f else (true, f)
  let l := { l with opened := none }
  if moved then l.reopen f else (l, f)

/-- Whether the path stands for a file that can be moved: for nothing but a file
that holds what is written to it. -/
def isMovable (l : LogFile) (f : Files) : Bool :=
  match f.entry? l.path with
  | some .folder => false
  | some (.file number) => number != Files.void
  | none => true

/-- Whether a line would bring the file to its limit. -/
def isFull (l : LogFile) (f : Files) (line : String) : Bool :=
  match l.opened with
  | some number =>
    l.isMovable f && 0 < l.maxBytes
      && l.maxBytes ≤ (f.content number).length + line.length
  | none => false

/-- Writes a line with its line feed, if the file is open in the end. -/
def write (l : LogFile) (f : Files) (line : String) : LogFile × Files :=
  let (l, f) := l.reopen f
  let (l, f) := if l.isFull f line then l.roll f else (l, f)
  match l.opened with
  | some number => (l, f.append number (Text.textBytes line))
  | none => (l, f)

end LogFile

/-! ### Handlers -/

/-- Where the records go. -/
inductive Sink
  | capture
  | console
  | file (l : LogFile)
  deriving Repr

/-- A handler. -/
structure Handler where
  sink : Sink
  /-- The number of the least level that is taken. -/
  least : Int
  /-- How many times the handler has been closed. -/
  closings : Nat
  deriving Repr

namespace Handler

/-- A new handler, which takes records of every level. -/
def ofSink (s : Sink) : Handler := ⟨s, 0, 0⟩

/-- Closes a handler.  A file is opened again when the next record comes. -/
def close (h : Handler) : Handler :=
  { h with
    closings := h.closings + 1
    sink := match h.sink with
      | .file l => .file { l with opened := none }
      | s => s }

end Handler

end Winnow.Log
