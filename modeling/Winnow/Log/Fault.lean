/-
Winnow/Log/Fault.lean

Why an operation on loggers fails, and what is said about it.
-/
import Winnow.ErrorCode
import Winnow.Files
import Winnow.Value.Text

namespace Winnow.Log

/-- The level from which records are taken: a number, which may have been given
as a truth value. -/
structure Threshold where
  number : Int
  isTruth : Bool
  deriving DecidableEq, Repr

/-- The text of a threshold. -/
def Threshold.text (t : Threshold) : String :=
  if t.isTruth then truthText (t.number != 0) else toString t.number

/-- Why a number of seconds is no time of a record. -/
inductive ClockFault
  /-- It does not fit a word of 64 bits. -/
  | noWord
  /-- Its year, counted from 1900, does not fit a word of 32 bits. -/
  | noYear
  /-- Its year does not fit a word of 32 bits. -/
  | longYear
  deriving DecidableEq, Repr

namespace ClockFault

/-- What is said about a fault. -/
def message : ClockFault → String
  | noWord => "timestamp out of range for platform time_t"
  | noYear => "[Errno 75] Value too large for defined data type"
  | longYear => "signed integer is greater than maximum"

/-- Whether a number fits a signed word of some bits. -/
def fits (bits : Int) (n : Int) : Bool :=
  -(Decimal.twoTo (bits - 1) : Int) ≤ n && n < Decimal.twoTo (bits - 1)

/-- Why a number of seconds after 1970-01-01 is no time of a record. -/
def ofSeconds? (n : Int) : Option ClockFault :=
  let year := (Calendar.yearMonthDay (n / 86400)).1
  if !fits 64 n then some noWord
  else if !fits 32 (year - 1900) then some noYear
  else if !fits 32 year then some longYear
  else none

end ClockFault

/-- Why an operation on loggers fails. -/
inductive Fault
  | nameNotText
  /-- No level has the name. -/
  | unknownName (name : String)
  /-- No threshold has the name. -/
  | unknownThreshold (name : String)
  | notThreshold (v : Value)
  | notLevel (t : Threshold)
  | noHash (kind : Kind)
  | noOrder (kind : Kind)
  | notPath (kind : Kind)
  | file (fault : FileFault)
  | clock (fault : ClockFault)
  | badSetting (text : String)
  /-- What is wrong cannot be said, because an integer is too long for it. -/
  | longInteger

namespace Fault

/-- What is said about a fault. -/
def message : Fault → String
  | nameNotText => "A logger name must be a string"
  | unknownName name => Text.quoted name
  | unknownThreshold name => "Unknown level: " ++ Text.quoted name
  | notThreshold v => "Level not an integer or a valid string: " ++ v.nestedText
  | notLevel t => s!"{t.text} is not a valid LogLevel"
  | noHash kind => s!"unhashable type: '{kind.fullName}'"
  | noOrder kind => s!"'>=' not supported between instances of 'int' and '{kind.fullName}'"
  | notPath kind => s!"expected str, bytes or os.PathLike object, not {kind.name}"
  | file fault => fault.message
  | clock fault => fault.message
  | badSetting text =>
    s!"Invalid log level: {text}. Must be one of "
      ++ Value.listText (Level.all.map fun l => Text.quoted l.name)
  | longInteger => longIntegerText

/-- The code of a fault, if it is reported with one. -/
def code? : Fault → Option ErrorCode
  | badSetting _ => some .invalidInput
  | _ => none

end Fault

end Winnow.Log
