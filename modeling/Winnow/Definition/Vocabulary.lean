/-
Winnow/Definition/Vocabulary.lean

The words of filter definitions: the calls that add a stage to a chain, the
selectors that name its attribute, the presets, and the limits.
-/
import Winnow.Predicate.Basic

namespace Winnow

/-! ### Calls -/

/-- A call that adds a stage: an operation, taken as it is or negated. -/
structure Call where
  operation : Operation
  negated : Bool
  deriving DecidableEq, Repr

namespace Call

/-- All calls. -/
def all : List Call :=
  [⟨.starts, false⟩, ⟨.starts, true⟩, ⟨.ends, false⟩, ⟨.ends, true⟩,
   ⟨.contains, false⟩, ⟨.contains, true⟩, ⟨.equals, false⟩, ⟨.equals, true⟩]

/-- The name of the call that takes an operation as it is. -/
def plainName : Operation → String
  | .starts => "starting"
  | .ends => "ending"
  | .contains => "containing"
  | .equals => "matching"

/-- The name of a call. -/
def name (c : Call) : String :=
  if c.negated then "not_" ++ plainName c.operation else plainName c.operation

/-- The call with a name. -/
def ofName? (name : String) : Option Call := all.find? fun c => c.name == name

/-- The predicate of the stage that a call adds. -/
def predicate (c : Call) (a : Attribute) (literals : List String) : Predicate :=
  let group := Predicate.anyLiteral a c.operation literals
  if c.negated then .negation group else group

end Call

/-- Adds the stage of a call. -/
def Chain.add (chain : Chain) (c : Call) (literals : List String) : Chain :=
  .stage chain.anchor (some (.chain chain)) (some (c.predicate chain.anchor literals))

/-! ### Selectors -/

/-- The ways to start a chain at an attribute. -/
inductive Selector
  | names
  | caseSensitiveNames
  | paths
  | caseSensitivePaths
  deriving DecidableEq, Repr

namespace Selector

/-- All selectors. -/
def all : List Selector := [names, caseSensitiveNames, paths, caseSensitivePaths]

/-- The name of a selector. -/
def name : Selector → String
  | names => "names"
  | caseSensitiveNames => "case_sensitive_names"
  | paths => "paths"
  | caseSensitivePaths => "case_sensitive_paths"

/-- The attribute of a selector. -/
def anchor : Selector → Attribute
  | names => .nameIgnoringCase
  | caseSensitiveNames => .name
  | paths => .pathIgnoringCase
  | caseSensitivePaths => .path

/-- The selector with a name. -/
def ofName? (name : String) : Option Selector := all.find? fun s => s.name == name

/-- The chain that a selector starts. -/
def chain (s : Selector) : Chain := .start s.anchor

end Selector

/-! ### Presets -/

/-- The ready-made filters. -/
inductive Preset
  | hidden
  | nonHidden
  deriving DecidableEq, Repr

/-- The start of the name of a hidden resource. -/
def hiddenMark : String := "."

namespace Preset

/-- All presets. -/
def all : List Preset := [hidden, nonHidden]

/-- The name of a preset. -/
def name : Preset → String
  | hidden => "hidden"
  | nonHidden => "non_hidden"

/-- The preset with a name. -/
def ofName? (name : String) : Option Preset := all.find? fun p => p.name == name

/-- The chain of a preset. -/
def chain : Preset → Chain
  | hidden => Selector.names.chain.add ⟨.starts, false⟩ [hiddenMark]
  | nonHidden => Selector.names.chain.add ⟨.starts, true⟩ [hiddenMark]

end Preset

/-! ### Limits -/

/-- The most characters of the name of a filter. -/
def nameLimit : Nat := 100

/-- The most steps of a definition. -/
def stepLimit : Nat := 64

/-- The most characters of a literal in a definition. -/
def literalLimit : Nat := 4096

end Winnow
