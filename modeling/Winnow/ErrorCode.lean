/-
Winnow/ErrorCode.lean

The codes of the errors that are reported to users, and the version of the
library.
-/

namespace Winnow

/-- The version of the library. -/
def version : String := "1.0.0"

/-- The code of an error. -/
inductive ErrorCode
  /-- A bad attribute, literal, definition or setting. -/
  | invalidInput
  /-- A file that does not exist. -/
  | notFound
  /-- A file that cannot be read. -/
  | internalError
  deriving DecidableEq, Repr

namespace ErrorCode

/-- All codes. -/
def all : List ErrorCode := [invalidInput, notFound, internalError]

/-- The name of a code. -/
def name : ErrorCode → String
  | invalidInput => "INVALID_INPUT"
  | notFound => "NOT_FOUND"
  | internalError => "INTERNAL_ERROR"

/-- The number of a code. -/
def number : ErrorCode → Nat
  | invalidInput => 1
  | notFound => 2
  | internalError => 6

end ErrorCode

end Winnow
