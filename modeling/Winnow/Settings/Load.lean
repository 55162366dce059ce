/-
Winnow/Settings/Load.lean

Settings from files.

A settings file is a YAML document whose outermost node is a mapping.  It takes
the place of the whole layer of its source; where it cannot be read, the layers
stay as they are.
-/
import Winnow.ErrorCode
import Winnow.Files
import Winnow.Settings.Layers
import Winnow.Yaml.Document

namespace Winnow

/-- Why a settings file cannot be read. -/
inductive LoadFault
  /-- The path begins at the folder of a user who is not known. -/
  | noHome
  | notFound (path : String)
  | malformed (path : String)
  | unreadable (path : String) (fault : FileFault)
  /-- The path cannot be looked up. -/
  | badPath (fault : FileFault)
  | notMapping (path : String)
  /-- The bytes are no text, or a node is not what its tag says. -/
  | badContent (fault : Yaml.Fault)
  deriving DecidableEq, Repr

namespace LoadFault

/-- What is said about a fault. -/
def message : LoadFault → String
  | noHome => "Could not determine home directory."
  | notFound path => "Config file not found: " ++ path
  | malformed path => "YAML parse error in " ++ path
  | unreadable path fault => s!"Error loading config {path}: {fault.message}"
  | badPath fault => fault.message
  | notMapping path => "Invalid config format in " ++ path
  | badContent fault => fault.message

/-- The code of a fault, if it is reported with one. -/
def code? : LoadFault → Option ErrorCode
  | notFound _ => some .notFound
  | malformed _ => some .invalidInput
  | unreadable .. => some .internalError
  | notMapping _ => some .invalidInput
  | noHome | badPath _ | badContent _ => none

end LoadFault

/-- The folder of a user. -/
def Files.folderOf? (f : Files) (user : FileName) : Option Path :=
  (f.users.find? fun u => FileName.ofText u.1 == user).map (·.2)

/-- The place that a path means.  Its first name may be a tilde, which stands for
the home, or a tilde with the name of a user, which stands for the folder of
that user. -/
def Files.placeOf (f : Files) (t : PathText) : Except LoadFault Path :=
  let named := t.names.head?.bind fun name => match name with
    | 0x7E :: user => some user
    | _ => none
  match if t.isAbsolute then none else named with
  | none => .ok (f.resolve t)
  | some user =>
    if user.isEmpty then .ok (f.home.follow t.names.tail)
    else match f.folderOf? user with
      | some folder => .ok (folder.follow t.names.tail)
      | none => if user.contains 0 then .error (.badPath ⟨.zeroByte, t⟩) else .error .noHome

namespace Setting

/-- Reads the text of a settings file, which is shown under a path. -/
def readDocument (shown : String) (bytes : List UInt8) (s : Store) :
    Except LoadFault (Item × Store) :=
  match (Yaml.Supply.ofBytes bytes).load s with
  | .error .malformed => .error (.malformed shown)
  | .error fault => .error (.badContent fault)
  | .ok (item, s) =>
    if (s.entries? item).isSome then .ok (item, s) else .error (.notMapping shown)

/-- Reads a settings file. -/
def readFile (f : Files) (path : String) (s : Store) : Except LoadFault (Item × Store) := do
  let p ← f.placeOf (.text path)
  let shown : PathText := .text (Text.textOfBytes (f.shownPath p))
  if (Text.textBytes path).contains 0 then .error (.badPath ⟨.zeroByte, shown⟩)
  else match f.reach p with
    | .error .longName => .error (.badPath ⟨.longName, shown⟩)
    | .error _ => .error (.notFound path)
    | .ok place => match f.entry? place with
      | none => .error (.notFound path)
      | some .folder => .error (.unreadable path ⟨.folder, shown⟩)
      | some (.file number) => readDocument path (f.content number) s

end Setting

/-- Puts the settings of a file in the place of the layer of a source. -/
def Layers.loadFile (l : Layers) (f : Files) (path : String) (source : Source) (s : Store) :
    Except LoadFault (Layers × Store) := do
  let (item, s) ← Setting.readFile f path s
  .ok (l.update source (some item), s)

end Winnow
