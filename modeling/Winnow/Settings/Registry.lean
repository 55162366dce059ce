/-
Winnow/Settings/Registry.lean

Settings that are watched, and share their objects.

A registry holds the store and any number of settings by their numbers.  Each
settings object has its layers and a row of watchers, who are told of every
change by `set`.  A watcher is known by its name, and has a reaction: after
taking note it may fail, take watchers away or add some, and make changes of its
own.  What it does may depend on what it is told, and on how often it has been
told before.

In a round of `set` the watchers of that moment are told, in order, of the
merged settings of that moment; who joins or leaves in a round does so from
the next round on (`Registry.set`).  A change that a watcher makes starts a round
within the round.  Only so many rounds can lie one within another
(`Stack.rounds`).
-/
import Winnow.Settings.Environment
import Winnow.Settings.Load
import Winnow.Store.Stored

namespace Winnow

/-! ### Watchers -/

/-- What a watcher may do when it is told of a change. -/
inductive Action
  | fail
  /-- Takes a watcher away from settings. -/
  | dismiss (settings : Nat) (watcher : String)
  /-- Adds a watcher to settings. -/
  | invite (settings : Nat) (watcher : String)
  /-- Makes a change. -/
  | set (settings : Nat) (path : List String) (value : Item) (source : Source)

/-- What a watcher does, one thing after another, each time it is told of a change:
by how often it has been told before, and by what it is told. -/
structure Reaction where
  actions : (turn : Nat) → (told : Stored) → List Action

namespace Reaction

/-- Takes note only. -/
def none : Reaction := ⟨fun _ _ => []⟩

/-- Fails each time. -/
def fail : Reaction := ⟨fun _ _ => [.fail]⟩

/-- Takes a watcher away from settings each time. -/
def dismiss (settings : Nat) (watcher : String) : Reaction :=
  ⟨fun _ _ => [.dismiss settings watcher]⟩

/-- Adds a watcher to settings each time. -/
def invite (settings : Nat) (watcher : String) : Reaction :=
  ⟨fun _ _ => [.invite settings watcher]⟩

/-- Makes a change the first time only. -/
def set (settings : Nat) (path : List String) (value : Item) : Reaction :=
  ⟨fun turn _ => if turn = 0 then [.set settings path value .runtime] else []⟩

end Reaction

/-! ### Faults -/

/-- Why an operation on settings fails. -/
inductive SettingFault
  | blocked (fault : SectionFault)
  | layer (fault : LayerFault)
  | load (fault : LoadFault)
  | watcher (name : String)
  deriving DecidableEq, Repr

namespace SettingFault

/-- What is said about a fault. -/
def message : SettingFault → String
  | blocked fault => fault.message
  | layer fault => fault.message
  | load fault => fault.message
  | watcher name => s!"watcher {name} failed"

end SettingFault

/-! ### The registry -/

/-- Settings and their watchers. -/
structure Settings where
  layers : Layers
  watchers : List String

namespace Settings

/-- Adds a watcher behind the others. -/
def addWatcher (c : Settings) (name : String) : Settings :=
  { c with watchers := c.watchers ++ [name] }

/-- Takes the first of the watchers with a name away. -/
def removeWatcher (c : Settings) (name : String) : Settings :=
  { c with watchers := c.watchers.erase name }

end Settings

/-- The settings of a program. -/
structure Registry where
  store : Store
  settings : List Settings
  /-- The reactions of watchers; a watcher without one only takes note. -/
  reactions : List (String × Reaction)
  /-- The watchers that have been told of a change, once for each time. -/
  turns : List String
  /-- The changes that watchers have taken note of, and what they were told. -/
  notes : List (String × Stored)
  /-- The settings of the program. -/
  global : Option Nat

namespace Registry

/-- The registry without settings. -/
def empty : Registry := ⟨.empty, [], [], [], [], none⟩

/-- The layers of settings. -/
def layers (r : Registry) (n : Nat) : Layers := ((r.settings[n]?).map (·.layers)).getD .none

/-- The watchers of settings. -/
def watchers (r : Registry) (n : Nat) : List String :=
  ((r.settings[n]?).map (·.watchers)).getD []

/-- Changes settings. -/
def update (r : Registry) (n : Nat) (f : Settings → Settings) : Registry :=
  { r with settings := r.settings.modify n f }

/-- Changes the layers of settings, and the store. -/
def setLayers (r : Registry) (n : Nat) (l : Layers) (s : Store) : Registry :=
  { r.update n fun c => { c with layers := l } with store := s }

/-- The reaction of a watcher. -/
def reaction (r : Registry) (name : String) : Reaction := (r.reactions.lookup name).getD .none

/-- Fixes the reaction of a watcher that has none yet.  From now on it is counted how
often the watcher is told. -/
def introduce (r : Registry) (name : String) (reaction : Reaction) : Registry :=
  if (r.reactions.lookup name).isSome then r
  else { r with
    reactions := (name, reaction) :: r.reactions
    turns := r.turns.filter (· != name) }

/-- What a watcher does when it is told of merged settings. -/
def actionsOf (r : Registry) (name : String) (item : Item) : List Action :=
  (r.reaction name).actions (r.turns.count name) ⟨r.store, item⟩

/-! ### Reading -/

/-- A setting and its source. -/
def find? (r : Registry) (n : Nat) (path : List String) : Option (Source × Item) :=
  (r.layers n).find? r.store path

/-- A setting, or a default where there is none. -/
def get (r : Registry) (n : Nat) (path : List String) (default : Item) : Item :=
  (r.layers n).get r.store path default

/-- A setting as a value, or a default where there is none. -/
def getStored (r : Registry) (n : Nat) (path : List String) (default : Value) : Stored :=
  match r.find? n path with
  | some found => ⟨r.store, found.2⟩
  | none => .ofValue default

end Registry

/-- What an operation on a registry comes to.  What has been changed before a
fault stays changed. -/
abbrev Outcome (α : Type) := Except SettingFault α × Registry

namespace Registry

/-- All layers of settings merged into one new mapping. -/
def merged [Stack] (r : Registry) (n : Nat) : Outcome Item :=
  match (r.layers n).merged r.store with
  | (.ok item, s) => (.ok item, { r with store := s })
  | (.error fault, s) => (.error (.layer fault), { r with store := s })

/-! ### Changes -/

/-- Puts a setting into the layer of a source, and tells nobody. -/
def assign (r : Registry) (n : Nat) (path : List String) (value : Item) (source : Source) :
    Outcome Unit :=
  match (r.layers n).assign r.store source path value with
  | (.ok (), l, s) => (.ok (), r.setLayers n l s)
  | (.error fault, l, s) => (.error (.blocked fault), r.setLayers n l s)

/-- A watcher takes note of merged settings. -/
def note (r : Registry) (name : String) (item : Item) : Registry :=
  { r with
    notes := r.notes ++ [(name, ⟨r.store, item⟩)]
    turns := name :: r.turns }

/-- Changes the rows of watchers by an action, if it does nothing else. -/
def edit (r : Registry) : Action → Registry
  | .dismiss n other => r.update n (·.removeWatcher other)
  | .invite n other => r.update n (·.addWatcher other)
  | .fail | .set .. => r

/-- A change of a setting, with all that comes of it. -/
abbrev Change := Source → Registry → Nat → List String → Item → Outcome Unit

/-- An action of a watcher, where `change` makes a change and tells of it. -/
def perform (change : Change) (name : String) (r : Registry) : Action → Outcome Unit
  | .fail => (.error (.watcher name), r)
  | .set n path value source => change source r n path value
  | action => (.ok (), r.edit action)

/-- The actions of a watcher, one after another. -/
def performAll (change : Change) (name : String) : List Action → Registry → Outcome Unit
  | [], r => (.ok (), r)
  | action :: rest, r => match perform change name r action with
    | (.ok (), r) => performAll change name rest r
    | (.error fault, r) => (.error fault, r)

/-- Tells watchers of merged settings, one after another. -/
def inform (change : Change) (item : Item) : List String → Registry → Outcome Unit
  | [], r => (.ok (), r)
  | name :: rest, r =>
    match performAll change name (r.actionsOf name item) (r.note name item) with
    | (.ok (), r) => inform change item rest r
    | (.error fault, r) => (.error fault, r)

/-- Tells the watchers of settings of all layers merged. -/
def announce [Stack] (change : Change) (r : Registry) (n : Nat) : Outcome Unit :=
  match r.merged n with
  | (.ok item, r) => inform change item (r.watchers n) r
  | (.error fault, r) => (.error fault, r)

/-- Puts a setting into the layer of a source and tells the watchers, where at most
`depth` rounds lie one within another. -/
def setTo [Stack] : (depth : Nat) → Change
  | 0, _, r, _, _, _ => (.error (.layer .tooDeep), r)
  | depth + 1, source, r, n, path, value => match r.assign n path value source with
    | (.ok (), r) => announce (setTo depth) r n
    | (.error fault, r) => (.error fault, r)

/-- Puts a setting into the layer of a source and tells the watchers. -/
def set [Stack] (r : Registry) (n : Nat) (path : List String) (value : Item) (source : Source) :
    Outcome Unit :=
  setTo (Stack.rounds + 1) source r n path value

/-- Puts the settings of a file in the place of the layer of a source. -/
def loadFile (r : Registry) (n : Nat) (f : Files) (path : String) (source : Source) :
    Outcome Unit :=
  match (r.layers n).loadFile f path source r.store with
  | .ok (l, s) => (.ok (), r.setLayers n l s)
  | .error fault => (.error (.load fault), r)

/-- Puts a copy of an item in the place of the layer of a source. -/
def loadCopy (r : Registry) (n : Nat) (item : Item) (source : Source) : Registry :=
  let (l, s) := (r.layers n).loadCopy r.store source item
  r.setLayers n l s

/-- Takes the layer of a source away, or all layers; the defaults stay. -/
def clear (r : Registry) (n : Nat) (source : Option Source) : Registry :=
  r.update n fun c => { c with layers := match source with
    | some source => c.layers.clear source
    | none => c.layers.clearAll }

/-! ### New settings -/

/-- The layers of new settings: the defaults, the settings of a file if one is
named, and those of the environment if it is read. -/
def newLayers (f : Files) (file : Option String) (environment : Option Environment) (s : Store) :
    Except SettingFault Layers × Store :=
  let (l, s) := Layers.initial s
  let loaded : Except LoadFault (Layers × Store) := match file with
    | some path =>
      if path.isEmpty then .ok (l, s) else l.loadFile f path .file s
    | none => .ok (l, s)
  match loaded with
  | .error fault => (.error (.load fault), s)
  | .ok (l, s) => match environment with
    | none => (.ok l, s)
    | some e => match e.load l s with
      | (.ok l, s) => (.ok l, s)
      | (.error fault, s) => (.error (.blocked fault), s)

/-- Adds new settings, and answers their number. -/
def add (r : Registry) (f : Files) (file : Option String) (environment : Option Environment) :
    Outcome Nat :=
  match newLayers f file environment r.store with
  | (.ok l, s) =>
    (.ok r.settings.length, { r with store := s, settings := r.settings ++ [⟨l, []⟩] })
  | (.error fault, s) => (.error fault, { r with store := s })

/-- The settings of the program.  Where there are none yet, new ones are
added. -/
def globalSettings (r : Registry) (f : Files) (file : Option String) (environment : Environment) :
    Outcome Nat :=
  match r.global with
  | some n => (.ok n, r)
  | none => match r.add f file (some environment) with
    | (.ok n, r) => (.ok n, { r with global := some n })
    | (.error fault, r) => (.error fault, r)

end Registry

end Winnow
