/-
Winnow/Attribute.lean

What a filter compares, and how.

An attribute is the name or the path of a resource, read with or without
regard to case.  An operation compares the text of an attribute with a
literal.  Where the attribute ignores case, the text and the literal are both
put into lower case first, each as a whole (`Attribute.accepts`).
-/
import Winnow.Resource
import Winnow.Text.Case

namespace Winnow

/-! ### Attributes -/

/-- The text of a resource that an attribute reads. -/
inductive Facet
  | name
  | path
  deriving DecidableEq, Repr

/-- An attribute of a resource. -/
inductive Attribute
  | name
  | nameIgnoringCase
  | path
  | pathIgnoringCase
  deriving DecidableEq, Repr

namespace Attribute

/-- All attributes. -/
def all : List Attribute := [name, nameIgnoringCase, path, pathIgnoringCase]

/-- The text that the attribute reads. -/
def facet : Attribute → Facet
  | name | nameIgnoringCase => .name
  | path | pathIgnoringCase => .path

/-- Whether upper and lower case are the same to the attribute. -/
def ignoresCase : Attribute → Bool
  | name | path => false
  | nameIgnoringCase | pathIgnoringCase => true

/-- The text of the attribute in a resource. -/
def get (a : Attribute) (r : Resource) : String :=
  match a.facet with
  | .name => r.name
  | .path => r.path

/-- A text as the attribute compares it. -/
def fold (a : Attribute) (s : String) : String :=
  if a.ignoresCase then Text.lower s else s

/-- The label of the attribute. -/
def label : Attribute → String
  | name => "NAME"
  | nameIgnoringCase => "NAME_IGNORING_CASE"
  | path => "PATH"
  | pathIgnoringCase => "PATH_IGNORING_CASE"

end Attribute

/-- The label of a facet. -/
def Facet.label : Facet → String
  | name => "name"
  | path => "path"

/-! ### Operations -/

/-- Whether a text holds another. -/
def holdsText (inner : List Char) : List Char → Bool
  | [] => inner.isEmpty
  | c :: cs => inner.isPrefixOf (c :: cs) || holdsText inner cs

/-- A comparison between the text of an attribute and a literal. -/
inductive Operation
  | starts
  | ends
  | contains
  | equals
  deriving DecidableEq, Repr

namespace Operation

/-- All operations. -/
def all : List Operation := [starts, ends, contains, equals]

/-- Whether a text stands in the relation to a literal. -/
def test (o : Operation) (text literal : String) : Bool :=
  match o with
  | starts => literal.toList.isPrefixOf text.toList
  | ends => literal.toList.isSuffixOf text.toList
  | contains => holdsText literal.toList text.toList
  | equals => text == literal

/-- The label of the operation. -/
def label : Operation → String
  | starts => "STARTS"
  | ends => "ENDS"
  | contains => "CONTAINS"
  | equals => "EQUALS"

/-- The word for the operation. -/
def word : Operation → String
  | starts => "starts"
  | ends => "ends"
  | contains => "contains"
  | equals => "equals"

end Operation

/-- Whether the attribute of a resource stands in the relation to a literal. -/
def Attribute.accepts (a : Attribute) (o : Operation) (r : Resource) (literal : String) : Bool :=
  o.test (a.fold (a.get r)) (a.fold literal)

end Winnow
