/-
Winnow/Store/Section.lean

Sections: mappings within mappings, reached by a path of keys.

`find?` follows a path.  `assign` puts an item under a path and adds the
sections that are missing on the way; it goes no further than the first thing
on the way that is not a section.  `merge` lays one mapping over another, both
of them left as they are.  Merging goes no deeper than the stack (`Stack.mappings`),
so that it ends where sections are parts of themselves.
-/
import Winnow.Stack
import Winnow.Store.Basic

namespace Winnow

/-- Why nothing can be put under a path. -/
inductive SectionFault
  /-- What is met before the last key is not a section. -/
  | noSection (kind : Kind)
  /-- What is met at the last key is not a section. -/
  | noAssignment (kind : Kind)
  deriving DecidableEq, Repr

namespace SectionFault

/-- What is said about a fault. -/
def message : SectionFault → String
  | noSection kind => s!"'{kind.fullName}' object has no attribute 'setdefault'"
  | noAssignment .list => "list indices must be integers or slices, not str"
  | noAssignment kind => s!"'{kind.fullName}' object does not support item assignment"

end SectionFault

namespace Store

/-! ### Following a path -/

/-- The item under a path. -/
def find? (s : Store) (i : Item) : List String → Option Item
  | [] => some i
  | key :: rest => match (s.entries? i).bind (Entries.find? (.text key)) with
    | some next => s.find? next rest
    | none => none

/-! ### Assignment -/

/-- Puts an item under a key of a section. -/
def putEntry (s : Store) (address : Nat) (entries : List (Value × Item)) (key : String)
    (value : Item) : Store :=
  s.put address (.mapping (Entries.insert (.text key) value entries))

/-- Puts an item under a path, and adds the sections that are missing. -/
def assign (s : Store) (value : Item) (i : Item) : List String → Except SectionFault Unit × Store
  | [] => (.ok (), s)
  | [last] => match i.address?, s.entries? i with
    | some address, some entries => (.ok (), s.putEntry address entries last value)
    | _, _ => (.error (.noAssignment (s.kind i)), s)
  | key :: rest => match i.address?, s.entries? i with
    | some address, some entries => match Entries.find? (.text key) entries with
      | some next => s.assign value next rest
      | none =>
        let (fresh, s) := s.add (.mapping [])
        (s.putEntry address entries key fresh).assign value fresh rest
    | _, _ => (.error (.noSection (s.kind i)), s)

/-! ### Merging -/

/-- Lays entries over others.  Where both have a mapping under a key, the two
are merged into a new one; otherwise the later item counts.  There is no result
where merging goes deeper than a depth. -/
def mergeTo : (depth : Nat) → (base upper : List (Value × Item)) → Store →
    Option (List (Value × Item) × Store)
  | 0, _, _, _ => none
  | depth + 1, base, upper, s =>
    upper.foldlM (fun (entries, s) (key, value) =>
      match (Entries.find? key entries).bind s.entries?, s.entries? value with
      | some under, some above => do
        let (merged, s) ← mergeTo depth under above s
        let (fresh, s) := s.add (.mapping merged)
        some (Entries.insert key fresh entries, s)
      | _, _ => some (Entries.insert key value entries, s)) (base, s)

/-- Lays entries over others, where merging may go as deep as the stack. -/
def merge [Stack] (base upper : List (Value × Item)) (s : Store) :
    Option (List (Value × Item) × Store) :=
  mergeTo Stack.mappings base upper s

end Store

end Winnow
