/-
Winnow/Log/Hub.lean

Channels, which loggers of one name share, and the handlers attached to them.

A channel has a threshold and a row of handlers, and stands below another one:
the nearest of those named by a beginning of its own name, cut at a dot, and
below the root where there is none.  A channel without a threshold (its number
is zero) takes that of the channel above it (`Hub.effective`).  A new channel
comes between the channels below its name and what they stood below, unless
that has a name which begins with its own (`Hub.openChannel`).

A record that reaches the threshold goes to the handlers of its channel, in the
order in which they were attached, and to no others (`Hub.deliver`).
-/
import Winnow.Log.Fault
import Winnow.Log.Handler

namespace Winnow.Log

/-- What loggers of one name share. -/
structure Channel where
  threshold : Threshold
  handlers : List Nat
  /-- The name of the channel above; none for the root. -/
  above : Option String
  deriving Repr

/-- A logger: one of several with its name, perhaps. -/
structure Logger where
  number : Nat
  name : Value
  channel : String

/-- The state of all logging. -/
structure Hub where
  files : Files
  channels : String → Option Channel
  handlers : List Handler
  /-- The open blocks of context, the outermost first. -/
  blocks : List Context
  /-- The records that reached handlers that keep them, with their numbers. -/
  records : List (Nat × Record)
  /-- What has been written to the console. -/
  console : String
  /-- The time, in seconds. -/
  clock : Int
  /-- The number of loggers made. -/
  made : Nat
  /-- The logger of the program. -/
  global : Option Logger

/-- The name of the root channel. -/
def rootName : String := "root"

/-- The threshold of the root channel at the beginning. -/
def rootThreshold : Threshold := ⟨Level.warning.number, false⟩

namespace Hub

/-- The state before any logging. -/
def initial (f : Files) : Hub where
  files := f
  channels := fun name => if name = rootName then some ⟨rootThreshold, [], none⟩ else none
  handlers := []
  blocks := []
  records := []
  console := ""
  clock := 0
  made := 0
  global := none

/-! ### Channels -/

/-- A channel without a threshold and without handlers. -/
def freshChannel (above : String) : Channel := ⟨⟨0, false⟩, [], some above⟩

/-- The channel with a name; a fresh one below the root where there is none. -/
def channel (h : Hub) (name : String) : Channel :=
  (h.channels name).getD (freshChannel rootName)

/-- Changes the channel with a name. -/
def setChannel (h : Hub) (name : String) (c : Channel) : Hub :=
  { h with channels := fun n => if n = name then some c else h.channels n }

/-- Changes a handler. -/
def updateHandler (h : Hub) (n : Nat) (f : Handler → Handler) : Hub :=
  { h with handlers := h.handlers.modify n f }

/-- Adds a handler, attached to nothing. -/
def addSink (h : Hub) (s : Sink) : Nat × Hub :=
  (h.handlers.length, { h with handlers := h.handlers ++ [.ofSink s] })

/-- The positions of the dots in a name, from a position on. -/
def dotsFrom (position : Nat) : List Char → List Nat
  | [] => []
  | c :: rest => if c = '.' then position :: dotsFrom (position + 1) rest
    else dotsFrom (position + 1) rest

/-- Those of descending positions that are less than `limit`, where each sets
the limit for the next: between two of them there is another character. -/
def cuts (limit : Nat) : List Nat → List Nat
  | [] => []
  | p :: rest => if 0 < p && p < limit then p :: cuts (p - 1) rest else cuts limit rest

/-- The names that a channel may stand below, the nearest first. -/
def namesAbove (name : String) : List String :=
  let cs := name.toList
  (cuts cs.length (dotsFrom 0 cs).reverse).map fun p => String.ofList (cs.take p)

/-- Whether one text begins with another. -/
def beginsWith (s start : String) : Bool := start.toList.isPrefixOf s.toList

/-- A channel of a name after another channel has been opened, which comes
between it and the channel above it if it stands on the way. -/
def adopt (opened name : String) (c : Channel) : Channel :=
  match c.above with
  | none => c
  | some above =>
    if (namesAbove name).contains opened && !beginsWith above opened then
      { c with above := some opened }
    else c

/-- Opens the channel with a name, if it is not open yet. -/
def openChannel (h : Hub) (name : String) : Hub :=
  match h.channels name with
  | some _ => h
  | none =>
    let above := ((namesAbove name).find? fun n => (h.channels n).isSome).getD rootName
    { h with channels := fun n =>
        if n = name then some (freshChannel above) else (h.channels n).map (adopt name n) }

/-- The first number other than zero on the way up from a channel, followed for
as many steps as given. -/
def effectiveFrom (h : Hub) : (fuel : Nat) → String → Int
  | 0, _ => 0
  | fuel + 1, name =>
    let c := h.channel name
    if c.threshold.number ≠ 0 then c.threshold.number
    else match c.above with
      | some above => h.effectiveFrom fuel above
      | none => 0

/-- The number that a channel takes records from.  Every name on the way up is
shorter than the one before, the root excepted. -/
def effective (h : Hub) (name : String) : Int := h.effectiveFrom (name.length + 2) name

/-- Whether a channel takes records of a level. -/
def takes (h : Hub) (name : String) (level : Int) : Bool := 0 < level && h.effective name ≤ level

/-- Attaches a handler to a channel, if it is not attached yet. -/
def attach (h : Hub) (name : String) (handler : Nat) : Hub :=
  let c := h.channel name
  if c.handlers.contains handler then h
  else h.setChannel name { c with handlers := c.handlers ++ [handler] }

/-- Detaches a handler from a channel. -/
def detach (h : Hub) (name : String) (handler : Nat) : Hub :=
  let c := h.channel name
  h.setChannel name { c with handlers := c.handlers.filter (· != handler) }

/-! ### Records -/

/-- Writes a text to the console. -/
def print (h : Hub) (text : String) : Hub := { h with console := h.console ++ text ++ "\n" }

/-- Gives a record to a handler. -/
def give (h : Hub) (r : Record) (n : Nat) : Hub :=
  match h.handlers[n]? with
  | none => h
  | some handler =>
    if r.level < handler.least then h
    else match handler.sink with
      | .capture => { h with records := h.records ++ [(n, r)] }
      | .console => h.print (r.line h.clock)
      | .file l =>
        let (l, f) := l.write h.files (r.line h.clock ++ "\n")
        { h with files := f }.updateHandler n fun handler => { handler with sink := .file l }

/-- Gives a record to the handlers of its channel.  Where there are none, the
message of a warning or worse is written to the console. -/
def deliver (h : Hub) (r : Record) : Hub :=
  match (h.channel r.channel).handlers with
  | [] => if (Level.warning.number : Int) ≤ r.level then h.print (r.withRaised r.message) else h
  | handlers => handlers.foldl (fun h n => h.give r n) h

/-! ### Blocks of context -/

/-- Opens a block of context. -/
def enter (h : Hub) (c : Context) : Hub := { h with blocks := h.blocks ++ [c] }

/-- Closes the innermost block of context. -/
def leave (h : Hub) : Hub := { h with blocks := h.blocks.dropLast }

end Hub

end Winnow.Log
