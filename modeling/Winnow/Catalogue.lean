/-
Winnow/Catalogue.lean

Named filters, built from their definitions.

The definitions are read one after another, each within a block of context with
its name.  For each that is good a message is written, and the first that is
bad ends the reading with a warning; nothing is read or written for those after
it (`Catalogue.load`).  There is no warning of a fault that is reported without
a code.
-/
import Winnow.Definition.Basic
import Winnow.Log.Logger
import Winnow.Settings.Registry

namespace Winnow

/-- Filters by their names, in order. -/
abbrev Catalogue := List (String × Chain)

namespace Catalogue

variable {α : Type} [Shaped α]

open Log (Hub Logger Context)

/-- The name and the chain that an entry defines. -/
def entry (name : Value) (definition : α) : Except DefinitionFault (String × Chain) := do
  let n ← filterName name
  let chain ← Chain.ofDefinition definition
  .ok (n, chain)

/-- The key of the name of a filter in the context. -/
def nameKey : String := "filter"

/-- The key of the text of a fault in the context. -/
def reasonKey : String := "reason"

/-- The message about a good definition. -/
def builtMessage : String := "Built filter"

/-- The message about a bad definition. -/
def rejectedMessage : String := "Rejected filter definition"

/-- Reads the definition of a filter, and writes about it to a channel.  Where
that cannot be written, the reading fails too. -/
def loadEntry (channel : String) (name : Value) (definition : α) (h : Hub) :
    Except DefinitionFault (String × Chain) × Hub :=
  let h := h.enter [(nameKey, name)]
  match entry name definition with
  | .ok built => match h.log channel .debug builtMessage [] with
    | (.ok (), h) => (.ok built, h.leave)
    | (.error _, h) => (.error .longInteger, h.leave)
  | .error fault => match fault.code? with
    | none => (.error fault, h.leave)
    | some _ =>
      match h.log channel .warning rejectedMessage [(reasonKey, .text fault.message)] with
      | (.ok (), h) => (.error (.naming name (.badFilter name fault)), h.leave)
      | (.error _, h) => (.error .longInteger, h.leave)

/-- Reads definitions one after another. -/
def loadEntries (channel : String) : List (Value × α) → Hub →
    Except DefinitionFault Catalogue × Hub
  | [], h => (.ok [], h)
  | (name, definition) :: rest, h => match loadEntry channel name definition h with
    | (.error fault, h) => (.error fault, h)
    | (.ok built, h) => match loadEntries channel rest h with
      | (.error fault, h) => (.error fault, h)
      | (.ok others, h) => (.ok (built :: others), h)

/-- Reads a mapping of definitions. -/
def loadOn (channel : String) (definitions : α) (h : Hub) :
    Except DefinitionFault Catalogue × Hub :=
  match Shaped.shape definitions with
  | .mapping entries => loadEntries channel entries h
  | _ => (.error .filtersNotMapping, h)

/-- Reads a mapping of definitions and writes to a logger: to that of the
program where none is given. -/
def load (definitions : α) (logger : Option Logger) (h : Hub) :
    Except DefinitionFault Catalogue × Hub :=
  match logger with
  | some l => loadOn l.channel definitions h
  | none => match h.globalLogger Hub.defaultName with
    | (.ok l, h) => loadOn l.channel definitions h
    | (.error _, h) => loadOn Log.rootName definitions h

/-- The definitions in settings. -/
def definitionsIn (r : Registry) (n : Nat) : Stored := r.getStored n Setting.filters (.mapping [])

/-- Reads the definitions in settings. -/
def loadFrom (r : Registry) (n : Nat) (logger : Option Logger) (h : Hub) :
    Except DefinitionFault Catalogue × Hub :=
  load (definitionsIn r n) logger h

end Catalogue

end Winnow
