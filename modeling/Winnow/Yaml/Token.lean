/-
Winnow/Yaml/Token.lean

The tokens of a YAML document.  Where a block collection begins or ends shows
in the indentation alone, and a key shows only by the colon behind it; the
tokens make both explicit.  Where the text cannot be read any further, the
last token says why.
-/
import Winnow.Yaml.Fault

namespace Winnow.Yaml

/-- The handle and the rest of a tag as they are written. -/
structure TagText where
  handle : Option String
  suffix : String
  deriving DecidableEq, Repr

/-- A token. -/
inductive Token
  | streamEnd
  | versionDirective (major minor : Nat)
  | tagDirective (handle start : String)
  | otherDirective
  | documentStart
  | documentEnd
  | blockSequenceStart
  | blockMappingStart
  | blockEnd
  | flowSequenceStart
  | flowSequenceEnd
  | flowMappingStart
  | flowMappingEnd
  | blockEntry
  | flowEntry
  | key
  | value
  | reference (name : String)
  | anchor (name : String)
  | tag (text : TagText)
  | scalar (text : String) (isPlain : Bool)
  /-- The text cannot be read from here on. -/
  | broken (fault : Fault)
  deriving DecidableEq, Repr

/-- Whether a token is a directive. -/
def Token.isDirective : Token → Bool
  | versionDirective .. | tagDirective .. | otherDirective => true
  | _ => false

/-- Why tokens do not go on as they should. -/
def unexpected : List Token → Fault
  | .broken fault :: _ => fault
  | _ => .malformed

/-- Whether the first token is one of those given. -/
def comesNext (kinds : List Token) (ts : List Token) : Bool := ts.head?.any kinds.contains

end Winnow.Yaml
