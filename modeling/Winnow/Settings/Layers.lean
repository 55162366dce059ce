/-
Winnow/Settings/Layers.lean

Settings in layers, one for each source.

`find?` looks a setting up, from the highest source down; no value counts as
no setting.  `merged` lays all layers over one another into a new mapping.
`assign` puts a setting into one layer.
-/
import Winnow.Settings.Source
import Winnow.Settings.Key
import Winnow.Store.Section

namespace Winnow

/-- The objects that the sources give. -/
abbrev Layers := Source → Option Item

/-- Why layers cannot be merged. -/
inductive LayerFault
  /-- A layer is not a mapping. -/
  | notMapping (kind : Kind)
  /-- Too many mappings would have to be merged one within another. -/
  | tooDeep
  deriving DecidableEq, Repr

namespace LayerFault

/-- What is said about a fault. -/
def message : LayerFault → String
  | notMapping kind => s!"'{kind.fullName}' object has no attribute 'items'"
  | tooDeep => "maximum recursion depth exceeded while calling a Python object"

end LayerFault

namespace Layers

/-- No layers. -/
def none : Layers := fun _ => Option.none

/-- Changes the layer of a source. -/
def update (l : Layers) (source : Source) (item : Option Item) : Layers :=
  fun s => if s = source then item else l s

/-! ### Reading -/

/-- The setting that a source gives. -/
def at? (l : Layers) (s : Store) (path : List String) (source : Source) : Option Item := do
  let layer ← l source
  let item ← s.find? layer path
  if item.isNull then Option.none else some item

/-- A setting, and the highest source that gives it. -/
def find? (l : Layers) (s : Store) (path : List String) : Option (Source × Item) :=
  Source.all.reverse.findSome? fun source => (l.at? s path source).map fun item => (source, item)

/-- A setting, or a default where there is none. -/
def get (l : Layers) (s : Store) (path : List String) (default : Item) : Item :=
  ((l.find? s path).map (·.2)).getD default

/-! ### Merging -/

/-- The entries of the layers of several sources, each laid over those before
it. -/
def mergeOver [Stack] (l : Layers) : List Source → List (Value × Item) → Store →
    Except LayerFault (List (Value × Item)) × Store
  | [], entries, s => (.ok entries, s)
  | source :: rest, entries, s => match l source with
    | Option.none => l.mergeOver rest entries s
    | some layer => match s.entries? layer with
      | Option.none => (.error (.notMapping (s.kind layer)), s)
      | some upper => match Store.merge entries upper s with
        | Option.none => (.error .tooDeep, s)
        | some (entries, s) => l.mergeOver rest entries s

/-- All layers in one new mapping. -/
def merged [Stack] (l : Layers) (s : Store) : Except LayerFault Item × Store :=
  match l.mergeOver Source.all [] s with
  | (.ok entries, s) =>
    let (item, s) := s.add (.mapping entries)
    (.ok item, s)
  | (.error fault, s) => (.error fault, s)

/-! ### Changes -/

/-- The layer of a source, which is added where there is none. -/
def ensure (l : Layers) (s : Store) (source : Source) : Item × Layers × Store :=
  match l source with
  | some layer => (layer, l, s)
  | Option.none =>
    let (layer, s) := s.add (.mapping [])
    (layer, l.update source (some layer), s)

/-- Puts a setting into the layer of a source. -/
def assign (l : Layers) (s : Store) (source : Source) (path : List String) (value : Item) :
    Except SectionFault Unit × Layers × Store :=
  let (layer, l, s) := l.ensure s source
  let (outcome, s) := s.assign value layer path
  (outcome, l, s)

/-- Takes the layer of a source away, that of the defaults excepted. -/
def clear (l : Layers) (source : Source) : Layers :=
  if source = .defaults then l else l.update source Option.none

/-- Takes all layers away but that of the defaults. -/
def clearAll (l : Layers) : Layers := fun s => if s = .defaults then l s else Option.none

/-- Puts a copy of an item in the place of the layer of a source. -/
def loadCopy (l : Layers) (s : Store) (source : Source) (item : Item) : Layers × Store :=
  let (copied, s) := s.copy item
  (l.update source (some copied), s)

/-- The layer of the defaults alone. -/
def initial (s : Store) : Layers × Store :=
  let (item, s) := s.place Setting.defaults
  (none.update .defaults (some item), s)

end Layers

end Winnow
