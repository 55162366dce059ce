/-
Winnow/Settings/Key.lean

The keys of the settings that the library reads, and the settings that it
comes with.  A key in a text is its parts joined by dots.
-/
import Winnow.Text.Split
import Winnow.Value.Basic

namespace Winnow.Setting

/-- The parts of a key. -/
def keyParts (key : String) : List String := Text.parts '.' key

/-- The section of the library. -/
def rootSection : String := "resfilter"

/-- The section of the log within it. -/
def logSection : String := "logging"

/-- The section of the filters within it. -/
def filterSection : String := "filters"

/-- The level in the section of the log. -/
def levelField : String := "level"

/-- The file in the section of the log. -/
def fileField : String := "file"

/-- The key of the level of the log. -/
def logLevel : List String := [rootSection, logSection, levelField]

/-- The key of the file of the log. -/
def logFile : List String := [rootSection, logSection, fileField]

/-- The key of the filters. -/
def filters : List String := [rootSection, filterSection]

/-- The level of the log where none is set. -/
def defaultLevel : Value := .text "INFO"

/-- The settings that the library comes with. -/
def defaults : Value :=
  .mapping [(.text rootSection, .mapping [
    (.text logSection, .mapping [(.text levelField, defaultLevel), (.text fileField, .null)]),
    (.text filterSection, .mapping [])])]

end Winnow.Setting
