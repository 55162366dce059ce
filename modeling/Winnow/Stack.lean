/-
Winnow/Stack.lean

How deep the stack of the program is.

Two things go as deep as what they are given: mappings are merged one within
another, and a change that a watcher makes starts a round within the round.
Where the stack ends, both fail.  How deep it is depends on who runs the
program, so it is left open; all that is asked is that sections can be merged
which are as deep as the longest name of a filter makes them.
-/
import Winnow.Definition.Vocabulary

namespace Winnow

/-- The depth of the stack. -/
class Stack where
  /-- The most mappings that are merged one within another. -/
  mappings : Nat
  /-- The most rounds that lie within a round. -/
  rounds : Nat
  names : nameLimit + 4 ≤ mappings

namespace Stack

theorem le_mappings [Stack] (h : n ≤ nameLimit + 4) : n ≤ mappings :=
  Nat.le_trans h names

/-- A stack of a usual depth. -/
scoped instance usual : Stack where
  mappings := 1000
  rounds := 1000
  names := by decide

end Stack

end Winnow
