/-
Winnow/Settings/Source.lean

Where settings come from.  A source takes precedence over the sources with
lower ranks.
-/

namespace Winnow

/-- Where a setting comes from. -/
inductive Source
  | defaults
  | file
  | environment
  | runtime
  deriving DecidableEq, Repr

namespace Source

/-- All sources, the lowest first. -/
def all : List Source := [defaults, file, environment, runtime]

/-- The name of a source. -/
def name : Source → String
  | defaults => "COMPILED_DEFAULTS"
  | file => "USER_CONFIG"
  | environment => "ENVIRONMENT"
  | runtime => "RUNTIME"

/-- The rank of a source. -/
def rank : Source → Nat
  | defaults => 1
  | file => 2
  | environment => 3
  | runtime => 4

/-- The source with a name. -/
def ofName? (name : String) : Option Source := all.find? fun s => s.name == name

end Source

end Winnow
