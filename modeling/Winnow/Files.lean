/-
Winnow/Files.lean

Folders and files.

A path stands for a folder or for a file.  The content of a file is kept apart
from its paths, under a number: whoever has a file open goes on writing to it
when it is given another name.  One file holds nothing, whatever is written to
it (`Files.void`).

The program works in one of the folders, its home.  Messages show the home by a
text of its own (`Files.shownPath`).
-/
import Winnow.Path

namespace Winnow

/-! ### Faults -/

/-- Why there is nothing to open or to add at a path. -/
inductive FileCause
  | missing
  | taken
  | notFolder
  | folder
  | longName
  /-- The path holds a byte that is zero. -/
  | zeroByte
  deriving DecidableEq, Repr

/-- A fault with the path as it is shown. -/
structure FileFault where
  cause : FileCause
  path : PathText
  deriving DecidableEq, Repr

namespace FileFault

/-- What is said about a fault. -/
def message (f : FileFault) : String :=
  match f.cause with
  | .missing => "[Errno 2] No such file or directory: " ++ f.path.quoted
  | .taken => "[Errno 17] File exists: " ++ f.path.quoted
  | .notFolder => "[Errno 20] Not a directory: " ++ f.path.quoted
  | .folder => "[Errno 21] Is a directory: " ++ f.path.quoted
  | .longName => "[Errno 36] File name too long: " ++ f.path.quoted
  | .zeroByte => "embedded null byte"

end FileFault

/-! ### The tree -/

/-- What a path stands for. -/
inductive Entry
  | folder
  | file (number : Nat)
  deriving DecidableEq, Repr

/-- Folders and files. -/
structure Files where
  /-- The folder in which the program works. -/
  home : Path
  /-- The text that stands for the path of the home in messages. -/
  homeText : String
  entries : List (Path × Entry)
  contents : Array (List UInt8)
  /-- The users of the system, with their folders. -/
  users : List (String × Path)

namespace Files

/-- No folders, no files and no users. -/
def empty : Files := ⟨[], "", [], #[], []⟩

/-- The number of the file that holds nothing. -/
def void : Nat := 0

/-- The path of the file that holds nothing. -/
def voidPath : Path := ["dev", "null"].map .ofText

/-- The folders that are there from the beginning. -/
def systemFolders : List Path :=
  let inside (folder : String) (names : List String) : List Path :=
    names.map fun name => [.ofText folder, .ofText name]
  ["boot", "dev", "etc", "home", "media", "mnt", "opt", "proc", "root", "run", "srv", "sys", "tmp",
    "usr", "var"].map (fun name => [.ofText name])
  ++ inside "usr" ["bin", "games", "include", "lib", "local", "sbin", "share", "src"]
  ++ inside "var" ["backups", "cache", "lib", "local", "log", "mail", "opt", "spool", "tmp"]

/-- The tree with an empty home. -/
def initial (home : Path) (homeText : String) (users : List (String × Path)) : Files where
  home := home
  homeText := homeText
  entries := (home, .folder) :: (voidPath, .file void) :: systemFolders.map fun p => (p, .folder)
  contents := #[[]]
  users := users

/-- What a path stands for. -/
def entry? (f : Files) (path : Path) : Option Entry :=
  if path.isEmpty then some .folder else f.entries.lookup path

/-- The path of a place as it is shown. -/
def shownPath (f : Files) (p : Path) : List UInt8 :=
  if f.home.isPrefixOf p then
    Text.textBytes f.homeText ++ (p.drop f.home.length).flatMap fun name => slash :: name
  else p.written

/-! ### Contents -/

/-- The content of a file. -/
def content (f : Files) (number : Nat) : List UInt8 := (f.contents[number]?).getD []

/-- Changes the content of a file. -/
def setContent (f : Files) (number : Nat) (bytes : List UInt8) : Files :=
  if number = void then f
  else { f with contents := f.contents.setIfInBounds number bytes }

/-- Writes bytes at the end of a file. -/
def append (f : Files) (number : Nat) (bytes : List UInt8) : Files :=
  f.setContent number (f.content number ++ bytes)

/-! ### Names -/

/-- Takes a path away. -/
def remove (f : Files) (path : Path) : Files :=
  { f with entries := f.entries.filter fun e => e.1 != path }

/-- Adds an empty file. -/
def create (f : Files) (path : Path) : Nat × Files :=
  let number := f.contents.size
  (number, { f with
    entries := (path, .file number) :: f.entries, contents := f.contents.push [] })

/-- The names in the home, in order. -/
def names (f : Files) : List String :=
  (f.entries.filterMap fun e => match e.1.drop f.home.length with
    | [name] => if f.home.isPrefixOf e.1 then some (Text.textOfBytes name) else none
    | _ => none).mergeSort

/-! ### Ways -/

/-- The most bytes of a name. -/
def nameLimit : Nat := 255

/-- The most bytes of a path. -/
def pathLimit : Nat := 4095

/-- Goes from a folder along names.  Every name but the last must lead to a
folder. -/
def walk (f : Files) (start : Path) : List FileName → Except FileCause Path
  | [] => .ok start
  | name :: rest =>
    if name = .up then f.walk start.dropLast rest
    else if nameLimit < name.length then .error .longName
    else if rest.isEmpty then .ok (start ++ [name])
    else match f.entry? (start ++ [name]) with
      | some .folder => f.walk (start ++ [name]) rest
      | some (.file _) => .error .notFolder
      | none => .error .missing

/-- Goes along names from a folder, where `raw` is the path as it is written. -/
def walkWritten (f : Files) (raw : List UInt8) (start : Path) (names : List FileName) :
    Except FileCause Path :=
  if raw.contains 0 then .error .zeroByte
  else if pathLimit < raw.length then .error .longName
  else f.walk start names

/-- The folder at which a path begins. -/
def startOf (f : Files) (t : PathText) : Path := if t.isAbsolute then [] else f.home

/-- The place that a path leads to, its names followed one by one. -/
def place (f : Files) (t : PathText) : Except FileCause Path :=
  f.walkWritten t.raw (f.startOf t) t.names

/-- The place that a path means when two dots undo the name before them. -/
def resolve (f : Files) (t : PathText) : Path := (f.startOf t).follow t.names

/-- Goes to a place from the outermost folder on. -/
def reach (f : Files) (p : Path) : Except FileCause Path := f.walkWritten p.written [] p

/-! ### Moving -/

/-- Takes a file away; a folder stays in the way. -/
def free? (f : Files) (path : Path) : Option Files :=
  if f.entry? path = some .folder then none else some (f.remove path)

/-- Gives a path another beginning. -/
def rebased (old new path : Path) : Path :=
  if old.isPrefixOf path then new ++ path.drop old.length else path

/-- Gives what has a path another path that can be reached, with all that lies
within it, in place of a file that had that path.  Nothing changes where there is
nothing to move. -/
def move? (f : Files) (old new : Path) : Option Files :=
  if (f.entry? old).isNone then some f
  else if (f.reach new).isOk then
    (f.free? new).map fun f =>
      { f with entries := f.entries.map fun e => (rebased old new e.1, e.2) }
  else none

/-! ### Opening -/

/-- Opens a file for writing, and adds it where there is none. -/
def openToWrite (f : Files) (p : Path) : Except FileCause (Nat × Files) :=
  match f.entry? p with
  | some (.file number) => .ok (number, f)
  | some .folder => .error .folder
  | none => .ok (f.create p)

/-- Opens a file for reading. -/
def openToRead (f : Files) (p : Path) : Except FileCause Nat :=
  match f.entry? p with
  | some (.file number) => .ok number
  | some .folder => .error .folder
  | none => .error .missing

/-- Adds a folder. -/
def addFolder (f : Files) (p : Path) : Except FileCause Files :=
  if (f.entry? p).isSome then .error .taken
  else .ok { f with entries := (p, .folder) :: f.entries }

/-- What is done at the place of a path, where a fault shows the path. -/
def withPlace {α : Type} (f : Files) (t : PathText) (act : Path → Except FileCause α) :
    Except FileFault α :=
  ((f.place t).bind act).mapError fun cause => ⟨cause, t⟩

/-- Writes a file, in place of what it held. -/
def write (f : Files) (t : PathText) (bytes : List UInt8) : Except FileFault Files :=
  f.withPlace t fun p => (f.openToWrite p).map fun (number, f) => f.setContent number bytes

/-- Reads a file. -/
def read (f : Files) (t : PathText) : Except FileFault (List UInt8) :=
  f.withPlace t fun p => (f.openToRead p).map f.content

/-- Adds a folder. -/
def makeFolder (f : Files) (t : PathText) : Except FileFault Files := f.withPlace t f.addFolder

end Files

end Winnow
