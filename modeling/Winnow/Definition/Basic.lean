/-
Winnow/Definition/Basic.lean

Filter definitions as values, and the chains they stand for.  A definition is
read from the shapes of a value and its parts.

A definition is the name of a preset, or a mapping with an optional selector
under `on` and an optional list of steps under `steps`.  A step is a mapping
with one entry, from the name of a call to a literal or a list of literals.

`Definition.ofValue` reads a value or names its first fault.  The faults are
looked for in this order: fields that are not known, the selector, the list of
steps and its length, and then step by step.

A chain is built in a second pass, from the value itself and without another
check (`Chain.ofChecked`): presets, selectors and calls are looked up by the
names as they stand.
-/
import Winnow.Definition.Fault

namespace Winnow

open Shaped (shape)

variable {α : Type} [Shaped α]

/-! ### Attributes, literals and names -/

/-- Accepts a value that stands for some attribute: any that does not count as
empty. -/
def checkAttribute (v : Value) : Except DefinitionFault Unit :=
  match v with
  | .scalar .null => .error .missingAttribute
  | v => if v.isEmpty then .error .emptyAttribute else .ok ()

/-- The chain started at the attribute that a value is. -/
def Chain.ofValue (v : Value) : Except DefinitionFault Chain := do
  checkAttribute v
  match v with
  | .scalar (.attribute a) => .ok (.start a)
  | v => .error (.notAttribute v.kind)

/-- Literals from values that must all be texts, where the first value has
position `position`. -/
def literalsFrom (position : Nat) : List α → Except DefinitionFault (List String)
  | [] => .ok []
  | v :: vs => match (shape v).text? with
    | none => .error (.literalNotText position (shape v).kind)
    | some s => do
      let rest ← literalsFrom (position + 1) vs
      .ok (s :: rest)

/-- Literals from values that must all be texts. -/
def literalsOf (values : List α) : Except DefinitionFault (List String) := literalsFrom 0 values

/-- Adds the stage of a call with literals given as values. -/
def Chain.addValues (chain : Chain) (c : Call) (values : List Value) :
    Except DefinitionFault Chain := do
  let literals ← literalsOf values
  .ok (chain.add c literals)

/-- Whether a character may stand in the name of a filter after the first. -/
def isNameChar (c : Char) : Bool := c.isAlphanum || c == '_' || c == '.' || c == '-'

/-- Whether a text has the form of the name of a filter: an ASCII letter and
then letters, digits, underscores, dots and hyphens.  One line feed at the end
does not count. -/
def isFilterName (cs : List Char) : Bool :=
  let body := if cs.getLast? = some '\n' then cs.dropLast else cs
  match body with
  | [] => false
  | c :: rest => c.isAlpha && rest.all isNameChar

/-- The name of a filter. -/
def filterName (v : Value) : Except DefinitionFault String :=
  if v.isEmpty then .error .emptyName
  else match v.text? with
    | none => .error (.nameNotText v.kind)
    | some s =>
      if !isFilterName s.toList then .error (.malformedName s)
      else if nameLimit < s.length then .error .longName
      else .ok s

/-! ### Steps -/

/-- A call with its literals. -/
structure Step where
  call : Call
  literals : List String
  deriving DecidableEq, Repr

namespace Step

/-- The literals of a call as they stand: a text for itself alone, or the items
of a list. -/
def rawLiterals (call : Call) (v : α) : Except DefinitionFault (List String) :=
  match shape v with
  | .scalar (.text s) => .ok [s]
  | .list items => literalsOf items
  | _ => .error (.literalsNotList call)

/-- Reads the literals of a call. -/
def literals? (call : Call) (v : α) : Except DefinitionFault (List String) := do
  let literals ← rawLiterals call v
  if literals.any fun s => literalLimit < s.length then .error (.longLiteral call)
  else .ok literals

/-- Reads a step. -/
def ofValue (v : α) : Except DefinitionFault Step :=
  match shape v with
  | .mapping [(name, values)] =>
    match name.text?.bind Call.ofName? with
    | none => .error (.naming name (.unknownCall name))
    | some call => do
      let literals ← literals? call values
      .ok ⟨call, literals⟩
  | .mapping entries => .error (.stepSize entries.length)
  | _ => .error .stepNotMapping

/-- Adds the stage of a step to a chain. -/
def extend (chain : Chain) (s : Step) : Chain := chain.add s.call s.literals

/-- Reads steps, of which the first has index `index`. -/
def listFrom (index : Nat) : List α → Except DefinitionFault (List Step)
  | [] => .ok []
  | v :: vs => match ofValue v with
    | .error fault => .error (fault.inStep index)
    | .ok s => do
      let rest ← listFrom (index + 1) vs
      .ok (s :: rest)

end Step

/-! ### Definitions -/

/-- A filter definition. -/
inductive Definition
  | preset (p : Preset)
  | custom (on : Selector) (steps : List Step)
  deriving DecidableEq, Repr

namespace Definition

/-- The field of the selector. -/
def onField : String := "on"

/-- The field of the steps. -/
def stepsField : String := "steps"

/-- The keys that are not fields of a definition. -/
def unknownKeys (entries : List (Value × α)) : List Value :=
  (entries.map (·.1)).filter fun k => k.text? != some onField && k.text? != some stepsField

/-- The fault of a mapping with unknown keys: it names their texts in order. -/
def unknownFault (keys : List Value) : DefinitionFault :=
  if Value.areWritable keys then .unknownFields (keys.map Value.aloneText).mergeSort
  else .longInteger

/-- The selector of a definition: that of names where none is given. -/
def selectorOf (entries : List (Value × α)) : Except DefinitionFault Selector :=
  match Entries.find? (.text onField) entries with
  | none => .ok .names
  | some v => match (shape v).text?.bind Selector.ofName? with
    | none => .error (.naming v (.unknownSelector (Shaped.aloneText v)))
    | some s => .ok s

/-- The steps of a definition: none where none are given. -/
def stepsOf (entries : List (Value × α)) : Except DefinitionFault (List Step) :=
  match (Entries.find? (.text stepsField) entries).map shape with
  | none => .ok []
  | some (.list items) =>
    if stepLimit < items.length then .error .manySteps else Step.listFrom 0 items
  | some _ => .error .stepsNotList

/-- Reads a definition. -/
def ofValue (v : α) : Except DefinitionFault Definition :=
  match shape v with
  | .scalar (.text name) => match Preset.ofName? name with
    | none => .error (.unknownPreset name)
    | some p => .ok (.preset p)
  | .mapping entries =>
    match unknownKeys entries with
    | [] => do
      let on ← selectorOf entries
      let steps ← stepsOf entries
      .ok (.custom on steps)
    | keys => .error (unknownFault keys)
  | _ => .error .notDefinition

/-- The chain of a definition. -/
def chain : Definition → Chain
  | preset p => p.chain
  | custom on steps => steps.foldl Step.extend on.chain

end Definition

/-! ### Building -/

namespace Chain

/-- The values that a call is made with: a text alone, or the items of a list. -/
def arguments? (v : α) : Option (List α) :=
  match shape v with
  | .scalar (.text _) => some [v]
  | .list items => some items
  | _ => none

/-- Makes the call that a step stands for. -/
def addStep (chain : Chain) (v : α) : Except DefinitionFault Chain :=
  match shape v with
  | .mapping ((name, values) :: _) =>
    match name.text?.bind Call.ofName?, arguments? values with
    | some call, some arguments => do
      let literals ← literalsOf arguments
      .ok (chain.add call literals)
    | _, _ => .error .unchecked
  | _ => .error .unchecked

/-- Makes the calls that steps stand for, one after another. -/
def addSteps (chain : Chain) : List α → Except DefinitionFault Chain
  | [] => .ok chain
  | v :: vs => do (← chain.addStep v).addSteps vs

/-- The chain that is started for the entries of a definition. -/
def startOf (entries : List (Value × α)) : Except DefinitionFault Chain :=
  match Entries.find? (.text Definition.onField) entries with
  | none => .ok Selector.names.chain
  | some v => match (shape v).text?.bind Selector.ofName? with
    | some s => .ok s.chain
    | none => .error .unchecked

/-- The steps among the entries of a definition. -/
def stepsOf (entries : List (Value × α)) : Except DefinitionFault (List α) :=
  match (Entries.find? (.text Definition.stepsField) entries).map shape with
  | none => .ok []
  | some (.list items) => .ok items
  | some _ => .error .unchecked

/-- Builds the chain of a value that has been checked. -/
def ofChecked (v : α) : Except DefinitionFault Chain :=
  match shape v with
  | .scalar (.text name) => match Preset.ofName? name with
    | some p => .ok p.chain
    | none => .error .unchecked
  | .mapping entries => do
    let chain ← startOf entries
    let steps ← stepsOf entries
    chain.addSteps steps
  | _ => .error .unchecked

/-- The chain that a value defines: the value is checked first. -/
def ofDefinition (v : α) : Except DefinitionFault Chain := do
  let _ ← Definition.ofValue v
  ofChecked v

end Chain

end Winnow
