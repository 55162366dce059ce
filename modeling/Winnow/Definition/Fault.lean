/-
Winnow/Definition/Fault.lean

What can be wrong with the parts of a filter definition, and what is said about
it.
-/
import Winnow.Definition.Vocabulary
import Winnow.ErrorCode
import Winnow.Value.Shape

namespace Winnow

/-- Why a value is not accepted in a filter or its definition. -/
inductive DefinitionFault
  | missingAttribute
  | emptyAttribute
  | notAttribute (kind : Kind)
  | literalNotText (position : Nat) (kind : Kind)
  | emptyName
  | nameNotText (kind : Kind)
  | malformedName (name : String)
  | longName
  | stepNotMapping
  | stepSize (count : Nat)
  | unknownCall (name : Value)
  | literalsNotList (call : Call)
  | longLiteral (call : Call)
  | unknownPreset (name : String)
  | notDefinition
  | unknownFields (fields : List String)
  | unknownSelector (text : String)
  | stepsNotList
  | manySteps
  | badStep (index : Nat) (fault : DefinitionFault)
  | filtersNotMapping
  | badFilter (name : Value) (fault : DefinitionFault)
  /-- What is wrong cannot be said, because an integer is too long for it. -/
  | longInteger
  /-- A chain is built from a value that is no definition. -/
  | unchecked

namespace DefinitionFault

/-- Names in quotation marks, in square brackets. -/
def choices (names : List String) : String :=
  Value.listText (names.map Text.quoted)

/-- What is said about a fault. -/
def message : DefinitionFault → String
  | missingAttribute => "Attribute must not be null"
  | emptyAttribute => "Attribute must not be empty"
  | notAttribute kind => s!"Attribute must be a ResourceAttribute, got {kind.name}"
  | literalNotText position kind =>
    s!"Literal at position {position} must be string, got {kind.name}"
  | emptyName => "Filter name cannot be empty"
  | nameNotText kind => s!"Filter name must be string, got {kind.bracketed}"
  | malformedName name =>
    s!"Invalid filter name: {name}. Must start with letter and contain only letters, numbers, "
      ++ "underscore, dot, and hyphen"
  | longName => s!"Filter name exceeds maximum length ({nameLimit})"
  | stepNotMapping => "Step must be a dictionary"
  | stepSize count => s!"Step must have exactly one operation, got {count}"
  | unknownCall name =>
    s!"Invalid step operation: {name.aloneText}. Must be one of {choices (Call.all.map Call.name)}"
  | literalsNotList call =>
    s!"Values for '{call.name}' must be a string or list of strings"
  | longLiteral call => s!"Value for '{call.name}' exceeds maximum length ({literalLimit})"
  | unknownPreset name =>
    s!"Unknown preset filter: {name}. Must be one of {choices (Preset.all.map Preset.name)}"
  | notDefinition => "Filter definition must be a preset name or a dictionary"
  | unknownFields fields => "Unknown filter definition fields: " ++ ", ".intercalate fields
  | unknownSelector text =>
    s!"Invalid attribute selector: {text}. Must be one of "
      ++ choices (Selector.all.map Selector.name)
  | stepsNotList => "Steps must be a list"
  | manySteps => s!"Filter exceeds maximum steps ({stepLimit})"
  | badStep index fault => s!"Invalid step at index {index}: {fault.message}"
  | filtersNotMapping => "Filters must be a dictionary"
  | badFilter name fault => s!"Invalid filter '{name.aloneText}': {fault.message}"
  | longInteger => longIntegerText
  | unchecked => "not a filter definition"

/-- The code of a fault, if it is reported with one. -/
def code? : DefinitionFault → Option ErrorCode
  | longInteger | unchecked => none
  | _ => some .invalidInput

/-- A fault that names a value: the value has to be short enough for it. -/
def naming {α : Type} [Shaped α] (v : α) (fault : DefinitionFault) : DefinitionFault :=
  if Shaped.isWritable v then fault else longInteger

/-- A fault of the step with an index. -/
def inStep (index : Nat) : DefinitionFault → DefinitionFault
  | longInteger => longInteger
  | fault => badStep index fault

end DefinitionFault

end Winnow
