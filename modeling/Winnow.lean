import Winnow.Attribute
import Winnow.Calendar
import Winnow.Catalogue
import Winnow.Decimal.Notation
import Winnow.Decimal.Numeral
import Winnow.Decimal.Shortest
import Winnow.Definition.Basic
import Winnow.Definition.Fault
import Winnow.Definition.Vocabulary
import Winnow.ErrorCode
import Winnow.Files
import Winnow.Log.Context
import Winnow.Log.Fault
import Winnow.Log.Handler
import Winnow.Log.Hub
import Winnow.Log.Level
import Winnow.Log.Logger
import Winnow.Log.Record
import Winnow.Path
import Winnow.Predicate.Basic
import Winnow.Predicate.Evaluation
import Winnow.Predicate.Text
import Winnow.Predicate.Trial
import Winnow.Proofs.Catalogue.Loading
import Winnow.Proofs.Catalogue.Messages
import Winnow.Proofs.Catalogue.Names
import Winnow.Proofs.Catalogue.Sections
import Winnow.Proofs.Catalogue.Texts
import Winnow.Proofs.Catalogue.TruthKeys
import Winnow.Proofs.Chain.Building
import Winnow.Proofs.Chain.Evaluation
import Winnow.Proofs.Chain.IgnoringCase
import Winnow.Proofs.Chain.Narrowing
import Winnow.Proofs.Chain.Sameness
import Winnow.Proofs.Chain.Stages
import Winnow.Proofs.Decimal.Floats
import Winnow.Proofs.Decimal.Integers
import Winnow.Proofs.Decimal.Spelling
import Winnow.Proofs.Definition.Alike
import Winnow.Proofs.Definition.FilterNames
import Winnow.Proofs.Definition.Grammar
import Winnow.Proofs.Definition.Reading
import Winnow.Proofs.Log.Attached
import Winnow.Proofs.Log.Contexts
import Winnow.Proofs.Log.Delivery
import Winnow.Proofs.Log.Global
import Winnow.Proofs.Log.Handlers
import Winnow.Proofs.Log.Programs
import Winnow.Proofs.Log.Reachable
import Winnow.Proofs.Log.Receivers
import Winnow.Proofs.Log.RefusedFiles
import Winnow.Proofs.Outcome
import Winnow.Proofs.Selection
import Winnow.Proofs.Settings.Apart
import Winnow.Proofs.Settings.Blocked
import Winnow.Proofs.Settings.Course
import Winnow.Proofs.Settings.Defaults
import Winnow.Proofs.Settings.Elsewhere
import Winnow.Proofs.Settings.Environment
import Winnow.Proofs.Settings.FirstSetting
import Winnow.Proofs.Settings.GivenOut
import Winnow.Proofs.Settings.Histories
import Winnow.Proofs.Settings.Keeping
import Winnow.Proofs.Settings.Layers
import Winnow.Proofs.Settings.LayersAlike
import Winnow.Proofs.Settings.LoadedFiles
import Winnow.Proofs.Settings.Mappings
import Winnow.Proofs.Settings.Merged
import Winnow.Proofs.Settings.Nested
import Winnow.Proofs.Settings.Order
import Winnow.Proofs.Settings.Reachable
import Winnow.Proofs.Settings.ReadBack
import Winnow.Proofs.Settings.Reading
import Winnow.Proofs.Settings.Rounds
import Winnow.Proofs.Settings.Secluded
import Winnow.Proofs.Settings.Sections
import Winnow.Proofs.Settings.Sound
import Winnow.Proofs.Settings.Twins
import Winnow.Proofs.Settings.Variables
import Winnow.Proofs.Settings.Writing
import Winnow.Proofs.Store.Alongside
import Winnow.Proofs.Store.Assigning
import Winnow.Proofs.Store.Changing
import Winnow.Proofs.Store.Copies
import Winnow.Proofs.Store.Copying
import Winnow.Proofs.Store.Entering
import Winnow.Proofs.Store.Entries
import Winnow.Proofs.Store.Joined
import Winnow.Proofs.Store.MergeLaw
import Winnow.Proofs.Store.Merging
import Winnow.Proofs.Store.MergingAlike
import Winnow.Proofs.Store.OneWay
import Winnow.Proofs.Store.Overlaid
import Winnow.Proofs.Store.Places
import Winnow.Proofs.Store.Rearranged
import Winnow.Proofs.Store.Shifting
import Winnow.Proofs.Store.Sound
import Winnow.Proofs.Store.TextKeys
import Winnow.Proofs.Store.Trees
import Winnow.Proofs.Store.Twins
import Winnow.Proofs.Store.Writing
import Winnow.Proofs.Text.Decoding
import Winnow.Proofs.Text.Lowering
import Winnow.Proofs.Text.Parts
import Winnow.Proofs.Text.Recasing
import Winnow.Proofs.Value.Keys
import Winnow.Proofs.Value.Numbers
import Winnow.Proofs.Yaml.Ending
import Winnow.Proofs.Yaml.Objects
import Winnow.Proofs.Yaml.Steps
import Winnow.Proofs.Yaml.Twins
import Winnow.Proofs.Yaml.Undecodable
import Winnow.Proofs.Yaml.Written
import Winnow.Resource
import Winnow.Selection
import Winnow.Settings.Environment
import Winnow.Settings.Key
import Winnow.Settings.Layers
import Winnow.Settings.Load
import Winnow.Settings.Reading
import Winnow.Settings.Registry
import Winnow.Settings.Source
import Winnow.Stack
import Winnow.Store.Basic
import Winnow.Store.Element
import Winnow.Store.Section
import Winnow.Store.Stored
import Winnow.Text.Blank
import Winnow.Text.Case
import Winnow.Text.CaseTable
import Winnow.Text.Digit
import Winnow.Text.Intake
import Winnow.Text.Pattern
import Winnow.Text.Printable
import Winnow.Text.Quoted
import Winnow.Text.Ranges
import Winnow.Text.Split
import Winnow.Text.Utf8
import Winnow.Value.Basic
import Winnow.Value.Shape
import Winnow.Value.Text
import Winnow.Yaml.Cursor
import Winnow.Yaml.Document
import Winnow.Yaml.Fault
import Winnow.Yaml.Graph
import Winnow.Yaml.Graph.Reading
import Winnow.Yaml.Properties
import Winnow.Yaml.Scalar
import Winnow.Yaml.Supply
import Winnow.Yaml.Tag
import Winnow.Yaml.Token
import Winnow.Yaml.Token.Lexer
import Winnow.Yaml.Token.Scalar
