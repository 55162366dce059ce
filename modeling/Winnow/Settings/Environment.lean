/-
Winnow/Settings/Environment.lean

Settings from environment variables.

A variable counts when its name begins with `variablePrefix`.  The rest of the
name in lower case, cut at underscores, is the path of the setting within the
section of the library.
-/
import Winnow.Settings.Reading
import Winnow.Settings.Layers

namespace Winnow

/-- Environment variables with their values, in order. -/
abbrev Environment := List (String × String)

namespace Environment

/-- What the names of the variables that count begin with. -/
def variablePrefix : String := "RESFILTER_"

/-- Sets a variable: in place of its value, or at the end. -/
def set (name value : String) : Environment → Environment
  | [] => [(name, value)]
  | (n, v) :: rest => if n = name then (n, value) :: rest else (n, v) :: set name value rest

/-- The environment in which variables are set one after another. -/
def ofList (settings : List (String × String)) : Environment :=
  settings.foldl (fun e v => e.set v.1 v.2) []

/-- The path of the setting that a variable gives. -/
def path? (name : String) : Option (List String) :=
  let start := variablePrefix.toList
  if start.isPrefixOf name.toList then
    some (Text.parts '_' (Text.lower (String.ofList (name.toList.drop start.length))))
  else none

/-- The settings of the variables that count: their paths and values. -/
def settings (e : Environment) : List (List String × Scalar) :=
  e.filterMap fun v => (path? v.1).map fun path => (path, Setting.read v.2)

/-- Puts settings into a section one after another. -/
def assignAll (root : Item) : List (List String × Scalar) → Store →
    Except SectionFault Unit × Store
  | [], s => (.ok (), s)
  | (path, value) :: rest, s => match s.assign (.scalar value) root path with
    | (.ok (), s) => assignAll root rest s
    | (.error fault, s) => (.error fault, s)

/-- Makes the layer of the environment.  There is none where no variable
counts. -/
def load (e : Environment) (l : Layers) (s : Store) : Except SectionFault Layers × Store :=
  let settings := e.settings
  if settings.isEmpty then (.ok l, s)
  else
    let (root, s) := s.add (.mapping [])
    match assignAll root settings s with
    | (.error fault, s) => (.error fault, s)
    | (.ok (), s) =>
      let (layer, s) := s.add (.mapping [(.text Setting.rootSection, root)])
      (.ok (l.update .environment (some layer)), s)

end Environment

end Winnow
