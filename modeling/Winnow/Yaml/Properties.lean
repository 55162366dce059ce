/-
Winnow/Yaml/Properties.lean

What stands before the content of a node: an anchor, and a tag.

A tag is written with a handle, and the directives at the beginning of a
document say what the handles in it stand for.
-/
import Winnow.Yaml.Token

namespace Winnow.Yaml

/-- The properties of a node. -/
structure Properties where
  anchor : Option String
  /-- The whole tag. -/
  tag : Option String
  deriving DecidableEq, Repr

namespace Properties

/-- No properties. -/
def none : Properties := ⟨.none, .none⟩

/-- Whether there are any properties. -/
def any (p : Properties) : Bool := p.anchor.isSome || p.tag.isSome

end Properties

/-! ### Handles -/

/-- What the handles of tags stand for. -/
abbrev Handles := List (String × String)

namespace Handles

/-- The handles of every document. -/
def standard : Handles := [("!", "!"), ("!!", "tag:yaml.org,2002:")]

/-- The tag that a written tag stands for. -/
def resolve (h : Handles) (t : TagText) : Except Fault String :=
  match t.handle with
  | none => .ok t.suffix
  | some handle => match h.lookup handle with
    | none => .error .malformed
    | some start => .ok (start ++ t.suffix)

end Handles

/-- The directives at the beginning of tokens: whether a version has been
given, and the handles defined so far, which are added to. -/
def readDirectives (hasVersion : Bool) (defined : Handles) :
    List Token → Except Fault (Handles × List Token)
  | .versionDirective major _ :: ts =>
    if hasVersion || major != 1 then .error .malformed else readDirectives true defined ts
  | .tagDirective handle start :: ts =>
    if (defined.lookup handle).isSome then .error .malformed
    else readDirectives hasVersion ((handle, start) :: defined) ts
  | .otherDirective :: ts => readDirectives hasVersion defined ts
  | ts => .ok (defined ++ Handles.standard, ts)

/-! ### Reading -/

/-- The properties at the beginning of tokens, in either order.  What the handle
of a tag stands for is looked up when the token behind the properties has come
into sight. -/
def readProperties (h : Handles) : List Token → Except Fault (Properties × List Token)
  | .anchor name :: .tag t :: ts => do
    let tag ← h.resolve t
    .ok (⟨some name, some tag⟩, ts)
  | .anchor name :: ts => .ok (⟨some name, none⟩, ts)
  | .tag t :: .anchor name :: ts => do
    let tag ← h.resolve t
    .ok (⟨some name, some tag⟩, ts)
  | .tag _ :: .broken fault :: _ => .error fault
  | .tag t :: ts => do
    let tag ← h.resolve t
    .ok (⟨none, some tag⟩, ts)
  | ts => .ok (.none, ts)

end Winnow.Yaml
