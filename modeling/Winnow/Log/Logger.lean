/-
Winnow/Log/Logger.lean

What loggers do: they are made, given thresholds and handlers, and write
records.

A new logger takes its channel over: the handlers that were attached are
detached, those that the new logger does not have are closed, and its own are
attached (`Hub.newLogger`).  They are given as a list, which may be the very
list in which a channel keeps its handlers (`HandlerList`).

The message of a record tells its context, and so nothing is written where a
value of the context cannot be (`Hub.tell`).  A message that the channel does not
take is not put together at all, but for those about exceptions.
-/
import Winnow.Log.Hub
import Winnow.Settings.Key
import Winnow.Text.Case
import Winnow.Value.Shape

namespace Winnow.Log

variable {α : Type} [Shaped α]

/-! ### Levels in values -/

/-- The level with a name in any case. -/
def levelNamed (name : String) : Except Fault Level :=
  let upper := Text.upper name
  match Level.ofName? upper with
  | some l => .ok l
  | none => .error (.unknownName upper)

/-- The threshold that a number is. -/
def Threshold.ofNumber? : Value → Option Threshold
  | .scalar (.truth b) => some ⟨if b then 1 else 0, true⟩
  | .scalar s => s.whole?.map fun n => ⟨n, false⟩
  | _ => none

/-- The threshold that a value stands for: a number, or the name of a level in
any case. -/
def Threshold.ofValue (v : Value) : Except Fault Threshold :=
  match v.text? with
  | some name => (levelNamed name).map fun l => ⟨l.number, false⟩
  | none => match ofNumber? v with
    | some t => .ok t
    | none => .error (.notThreshold v)

/-- The names that the threshold of a handler may have. -/
def thresholdNames : List (String × Int) :=
  [("CRITICAL", 50), ("FATAL", 50), ("ERROR", 40), ("WARN", 30), ("WARNING", 30), ("INFO", 20),
   ("DEBUG", 10), ("NOTSET", 0)]

/-- The threshold of a handler that a value stands for: a number, or a name as
it is. -/
def handlerThreshold (v : Value) : Except Fault Int :=
  match v.text? with
  | some name => match thresholdNames.lookup name with
    | some n => .ok n
    | none => .error (.unknownThreshold name)
  | none => match Threshold.ofNumber? v with
    | some t => .ok t.number
    | none => .error (.notThreshold v)

/-- The level that a setting stands for: its name in any case, or its number. -/
def levelOfSetting (v : α) : Except Fault Level :=
  let found := match Shaped.shape v with
    | .scalar (.text name) => Level.ofName? (Text.upper name)
    | .scalar s => Level.all.find? fun l => s.same (.integer l.number)
    | _ => none
  match found with
  | some l => .ok l
  | none => .error
    (if Shaped.isWritable v then .badSetting (Shaped.aloneText v) else .longInteger)

/-- The channel that the name of a logger stands for. -/
def channelOf (name : Value) : Except Fault String :=
  if name.isEmpty then .ok rootName
  else match name.text? with
    | some s => .ok s
    | none => .error .nameNotText

/-- The line that a handler writes for a message of a logger at a time.  The
logger is shown under its own name. -/
def Logger.lineAt (l : Logger) (level : Int) (message : String) (seconds : Int) :
    Except Fault String :=
  match ClockFault.ofSeconds? seconds with
  | some fault => .error (.clock fault)
  | none => .ok ((⟨l.name.aloneText, level, message, [], none⟩ : Record).line seconds)

/-- A list of handlers, as it is given to a new logger. -/
inductive HandlerList
  /-- A list that nothing else changes. -/
  | own (row : List Nat)
  /-- The very list in which a channel keeps its handlers. -/
  | kept (channel : String)

/-- What an operation on loggers comes to.  What has been changed before a
fault stays changed. -/
abbrev Outcome (α : Type) := Except Fault α × Hub

namespace Hub

/-! ### Thresholds -/

/-- Sets the threshold of a channel. -/
def setThreshold (h : Hub) (channel : String) (level : Value) : Outcome Unit :=
  match Threshold.ofValue level with
  | .ok t => (.ok (), h.setChannel channel { h.channel channel with threshold := t })
  | .error fault => (.error fault, h)

/-- The level that is the threshold of a channel. -/
def level (h : Hub) (channel : String) : Except Fault Level :=
  let t := (h.channel channel).threshold
  match Level.ofNumber? t.number with
  | some l => .ok l
  | none => .error (.notLevel t)

/-- Whether a channel takes records of a level that is a value. -/
def takesValue (h : Hub) (channel : String) (level : Value) : Except Fault Bool :=
  match level with
  | .scalar (.text name) => (levelNamed name).map fun l => h.takes channel l.number
  | .scalar (.nan _) => .ok false
  | .scalar (.float x) => .ok (0.0 < x && Scalar.floatReaches x (h.effective channel))
  | v => match v.unhashable? with
    | some kind => .error (.noHash kind)
    | none => match Threshold.ofNumber? v with
      | some t => .ok (h.takes channel t.number)
      | none => .error (.noOrder v.kind)

/-- Sets the threshold of a handler. -/
def setHandlerThreshold (h : Hub) (n : Nat) (level : Value) : Outcome Unit :=
  match handlerThreshold level with
  | .ok least => (.ok (), h.updateHandler n fun handler => { handler with least := least })
  | .error fault => (.error fault, h)

/-! ### New loggers -/

/-- What is in a list of handlers. -/
def row (h : Hub) : HandlerList → List Nat
  | .own row => row
  | .kept channel => (h.channel channel).handlers

/-- Detaches all handlers of a channel, and closes those that are not in a list by
then. -/
def detachAll (h : Hub) (channel : String) (list : HandlerList) : Hub :=
  (h.channel channel).handlers.foldl (fun h n =>
    let h := h.detach channel n
    if (h.row list).contains n then h else h.updateHandler n Handler.close) h

/-- Gives a channel the handlers of a list in place of those it has. -/
def replaceHandlers (h : Hub) (channel : String) (list : HandlerList) : Hub :=
  let h := h.detachAll channel list
  (h.row list).foldl (fun h n => h.attach channel n) h

/-- Adds a handler that writes to the console. -/
def addConsole (h : Hub) : Nat × Hub := h.addSink .console

/-- The name of a logger where none is given. -/
def defaultName : Value := .text Setting.rootSection

/-- The level of a logger where none is given. -/
def defaultLevel : Value := .scalar (.level .info)

/-- Makes a logger.  Where no handlers are given, it writes to the console. -/
def newLogger (h : Hub) (name level : Value) (handlers : Option HandlerList) : Outcome Logger :=
  match channelOf name with
  | .error fault => (.error fault, h)
  | .ok channel => match (h.openChannel channel).setThreshold channel level with
    | (.error fault, h) => (.error fault, h)
    | (.ok (), h) =>
      let (handlers, h) := match handlers with
        | some list => (list, h)
        | none =>
          let (n, h) := h.addConsole
          (.own [n], h)
      let h := h.replaceHandlers channel handlers
      (.ok ⟨h.made, name, channel⟩, { h with made := h.made + 1 })

/-- Makes a handler that writes to the file at a path. -/
def fileHandler (h : Hub) (path : PathText) (maxBytes backups : Int) : Outcome Nat :=
  match LogFile.open? h.files path maxBytes backups with
  | .ok (l, f) =>
    let (n, h) := { h with files := f }.addSink (.file l)
    (.ok n, h)
  | .error fault => (.error (.file fault), h)

/-! ### Writing -/

/-- The context of a record: that of the open blocks and its own. -/
def contextWith (h : Hub) (c : Context) : Context := (Context.joined h.blocks).overlay c

/-- Writes a record of a level, if the channel takes it. -/
def write (h : Hub) (channel : String) (level : Level) (message : String) (c : Context)
    (raised : Option Raised) : Hub :=
  if h.takes channel level.number then h.deliver ⟨channel, level.number, message, c, raised⟩ else h

/-- Writes a message that tells its context. -/
def tell (h : Hub) (channel : String) (level : Level) (message : String) (c : Context)
    (raised : Option Raised) : Outcome Unit :=
  if c.isWritable then (.ok (), h.write channel level (c.describe message) c raised)
  else (.error .longInteger, h)

/-- Writes a message with its context, if the channel takes it. -/
def log (h : Hub) (channel : String) (level : Level) (message : String) (own : Context) :
    Outcome Unit :=
  if h.takes channel level.number then h.tell channel level message (h.contextWith own) none
  else (.ok (), h)

/-- The key of the kind of an exception. -/
def kindKey : String := "exception_type"

/-- The key of the text of an exception. -/
def textKey : String := "exception_message"

/-- The context of a record about an exception. -/
def contextRaised (h : Hub) (own : Context) (raised : Raised) : Context :=
  ((h.contextWith own).put kindKey (.text raised.kind)).put textKey (.text raised.text)

/-- Writes a message about an exception, as an error.  It is put together in any
case. -/
def logRaised (h : Hub) (channel : String) (message : String) (raised : Raised) (own : Context) :
    Outcome Unit :=
  h.tell channel .error message (h.contextRaised own raised) (some raised)

/-! ### The logger of the program -/

/-- The logger of the program, if it has the given name; otherwise a new one
takes its place. -/
def globalLogger (h : Hub) (name : Value) : Outcome Logger :=
  match h.global with
  | some l =>
    if l.name.sameKey name then (.ok l, h) else renew
  | none => renew
where
  /-- A new logger of the program. -/
  renew : Outcome Logger :=
    match h.newLogger name defaultLevel none with
    | (.ok l, h) => (.ok l, { h with global := some l })
    | (.error fault, h) => (.error fault, h)

/-- The path that a setting is. -/
def pathOf (v : α) : Except Fault PathText :=
  match Shaped.shape v with
  | .scalar (.text s) => .ok (.text s)
  | .scalar (.bytes bs) => .ok (.bytes bs)
  | seen => .error (.notPath seen.kind)

/-- Makes the logger of the program from settings: its level, and the file that
it writes to unless the setting counts as empty. -/
def configure (h : Hub) (name : Value) (level file : α) : Outcome Logger :=
  match levelOfSetting level with
  | .error fault => (.error fault, h)
  | .ok level => match h.newLogger name (.scalar (.level level)) none with
    | (.error fault, h) => (.error fault, h)
    | (.ok logger, h) =>
      if (Shaped.shape file).isEmpty then (.ok logger, { h with global := some logger })
      else match pathOf file with
        | .error fault => (.error fault, h)
        | .ok path =>
          match h.fileHandler path LogFile.defaultMaxBytes LogFile.defaultBackups with
          | (.error fault, h) => (.error fault, h)
          | (.ok n, h) =>
            (.ok logger, { h.attach logger.channel n with global := some logger })

end Hub

end Winnow.Log
