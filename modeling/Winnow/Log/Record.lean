/-
Winnow/Log/Record.lean

Log records and the lines that are written for them.
-/
import Winnow.Calendar
import Winnow.Log.Context

namespace Winnow.Log

/-- An exception that a record carries: the name of its kind, alone and in
full, and its text. -/
structure Raised where
  kind : String
  fullKind : String
  text : String
  deriving DecidableEq, Repr

/-- The last line of the report of an exception. -/
def Raised.line (r : Raised) : String :=
  if r.text.isEmpty then r.fullKind else r.fullKind ++ ": " ++ r.text

/-- A log record. -/
structure Record where
  channel : String
  level : Int
  message : String
  context : Context
  raised : Option Raised

/-- The name of the number of a level. -/
def levelName (n : Int) : String :=
  match Level.ofNumber? n with
  | some l => l.name
  | none => if n = 0 then "NOTSET" else s!"Level {n}"

namespace Record

/-- A text with the exception of a record on a line of its own behind it. -/
def withRaised (r : Record) (text : String) : String :=
  match r.raised with
  | none => text
  | some e => if text.toList.getLast? = some '\n' then text ++ e.line else text ++ "\n" ++ e.line

/-- The line of a record of a given time. -/
def line (r : Record) (seconds : Int) : String :=
  let fields := [Calendar.instantText seconds, r.channel, levelName r.level, r.message]
  r.withRaised (" - ".intercalate fields)

end Record

end Winnow.Log
