/-
Winnow/Resource.lean

Resources: the files and folders that filters choose among.  A filter sees a
resource through two texts, its name and its path.

A resource made from a path alone (`Resource.ofPath`) has the path in normal
form.  Empty components and components that are a single dot are dropped;
exactly two slashes in front are kept as two, any other number of them becomes
one; a path without anything left is a single dot.  The name is the last
component, or empty where there is none.
-/
import Winnow.Text.Split

namespace Winnow

/-- A file or folder, by its name and its path. -/
structure Resource where
  name : String
  path : String
  deriving DecidableEq, Repr

namespace Resource

/-- The slashes in front of a path in normal form. -/
def root (path : List Char) : List Char :=
  match (path.takeWhile (· == '/')).length with
  | 0 => []
  | 2 => ['/', '/']
  | _ => ['/']

/-- The components of a path that count. -/
def components (path : List Char) : List (List Char) :=
  (Text.splitAt '/' path).filter fun c => !c.isEmpty && c != ['.']

/-- A path in normal form. -/
def normalPath (path : List Char) : List Char :=
  match root path ++ List.intercalate ['/'] (components path) with
  | [] => ['.']
  | normal => normal

/-- The resource at a path. -/
def ofPath (path : String) : Resource where
  name := String.ofList ((components path.toList).getLast?.getD [])
  path := String.ofList (normalPath path.toList)

end Resource

end Winnow
