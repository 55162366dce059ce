/-
Winnow/Log/Context.lean

The context of log records: keys with values, in the order in which the keys
first came.

Blocks of context lie one within another, and the context of a record is that
of all open blocks from the outermost on, and of the record itself
(`Context.joined`, `Context.overlay`).  A later value takes the place of an
earlier one without moving its key.
-/
import Winnow.Value.Text

namespace Winnow.Log

/-- Keys with values. -/
abbrev Context := List (String × Value)

namespace Context

/-- Puts a value under a key: in place of the value there, or at the end. -/
def put (key : String) (value : Value) : Context → Context
  | [] => [(key, value)]
  | (k, v) :: rest => if k = key then (k, value) :: rest else (k, v) :: put key value rest

/-- Puts all values of a context over another. -/
def overlay (base upper : Context) : Context := upper.foldl (fun c e => c.put e.1 e.2) base

/-- The context of blocks one within another, the outermost first. -/
def joined (blocks : List Context) : Context := blocks.foldl overlay []

/-- The text of a context. -/
def text (c : Context) : String :=
  " ".intercalate (c.map fun e => e.1 ++ "=" ++ e.2.aloneText)

/-- Whether all values can be written into a message. -/
def isWritable (c : Context) : Bool := c.all (·.2.isWritable)

/-- A message with its context behind it. -/
def describe (c : Context) (message : String) : String :=
  if c.isEmpty then message else message ++ " | " ++ c.text

end Context

end Winnow.Log
