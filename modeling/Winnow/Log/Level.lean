/-
Winnow/Log/Level.lean

The levels of log records, from the least to the most severe.
-/

namespace Winnow.Log

/-- How severe a record is. -/
inductive Level
  | debug
  | info
  | warning
  | error
  | critical
  deriving DecidableEq, Repr

namespace Level

/-- All levels, the least severe first. -/
def all : List Level := [debug, info, warning, error, critical]

/-- The number of a level. -/
def number : Level → Nat
  | debug => 10
  | info => 20
  | warning => 30
  | error => 40
  | critical => 50

/-- The name of a level. -/
def name : Level → String
  | debug => "DEBUG"
  | info => "INFO"
  | warning => "WARNING"
  | error => "ERROR"
  | critical => "CRITICAL"

/-- The level with a name. -/
def ofName? (name : String) : Option Level := all.find? fun l => l.name == name

/-- The level with a number. -/
def ofNumber? (n : Int) : Option Level := all.find? fun l => (l.number : Int) == n

end Level

end Winnow.Log
