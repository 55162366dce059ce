/-
Winnow/Proofs/Text/Parts.lean

The parts of a text between separators.

Cutting a text at a separator undoes joining parts with it, if no part holds the
separator (`parts_intercalate`); and what stands on the two sides of a separator is
cut independently (`parts_append`).  The parts hold nothing new (`mem_of_mem_splitAt`),
and there are not many of them (`length_parts_le`).
-/
import Mathlib.Data.List.Basic
import Winnow.Text.Split

namespace Winnow.Text

variable {separator c : Char} {cs part : List Char} {s front back : String}

theorem splitAt_eq_splitOn (separator : Char) (cs : List Char) :
    splitAt separator cs = cs.splitOn separator := by
  induction cs with
  | nil => rfl
  | cons d rest ih =>
    rw [splitAt, List.splitOn_cons_eq_if_modifyHead, ih]
    by_cases hd : d = separator
    · rw [if_pos hd, if_pos (beq_iff_eq.mpr hd)]
    · rw [if_neg hd, if_neg fun h => hd (beq_iff_eq.mp h)]
      obtain ⟨first, others, hrest⟩ :=
        List.exists_cons_of_ne_nil (List.splitOn_ne_nil separator rest)
      rw [hrest, List.modifyHead_cons]

theorem parts_append (separator : Char) (front back : String) :
    parts separator (front ++ String.singleton separator ++ back)
      = parts separator front ++ parts separator back := by
  unfold parts
  rw [String.toList_append, String.toList_append, String.toList_singleton, List.append_assoc,
    List.singleton_append, splitAt_eq_splitOn, splitAt_eq_splitOn, splitAt_eq_splitOn,
    List.splitOn_append_cons_self, List.map_append]

theorem parts_of_notMem (h : separator ∉ s.toList) : parts separator s = [s] := by
  unfold parts
  rw [splitAt_eq_splitOn, List.splitOn_eq_singleton h, List.map_singleton, String.ofList_toList]

/-- There is at most one part more than there are characters. -/
theorem length_parts_le (separator : Char) (s : String) :
    (parts separator s).length ≤ s.length + 1 := by
  have hsplit (cs : List Char) : (splitAt separator cs).length ≤ cs.length + 1 := by
    induction cs with
    | nil => exact Nat.le_refl _
    | cons c rest ih =>
      rw [splitAt]
      split
      · exact Nat.succ_le_succ ih
      · split
        · exact Nat.le_add_left _ _
        · rename_i first others hrest
          rw [hrest] at ih
          exact Nat.le_succ_of_le ih
  unfold parts
  rw [List.length_map, ← String.length_toList]
  exact hsplit s.toList

/-- **Parts that are joined are parts again**, if none of them holds the separator. -/
theorem parts_intercalate {row : List String} (hrow : row ≠ [])
    (h : ∀ part ∈ row, separator ∉ part.toList) :
    parts separator ((String.singleton separator).intercalate row) = row := by
  have hlists : ∀ part ∈ row.map String.toList, separator ∉ part := by
    intro part hpart
    obtain ⟨text, htext, rfl⟩ := List.mem_map.mp hpart
    exact h text htext
  unfold parts
  rw [String.toList_intercalate, String.toList_singleton, splitAt_eq_splitOn,
    List.splitOn_intercalate separator hlists (List.map_eq_nil_iff.not.mpr hrow), List.map_map]
  exact List.map_id'' (fun text => String.ofList_toList) row

/-- A part holds no character but those of the text. -/
theorem mem_of_mem_splitAt (hpart : part ∈ splitAt separator cs) (hc : c ∈ part) : c ∈ cs := by
  rw [splitAt_eq_splitOn] at hpart
  rw [← @List.intercalate_splitOn _ cs _ _ separator]
  generalize cs.splitOn separator = row at hpart ⊢
  induction row with
  | nil => cases hpart
  | cons first rest ih =>
    cases rest with
    | nil =>
      cases List.mem_singleton.mp hpart
      rw [List.intercalate_singleton]
      exact hc
    | cons second rest =>
      rw [List.intercalate_cons_cons, List.mem_append, List.mem_append]
      rcases List.mem_cons.mp hpart with rfl | hpart
      · exact .inl (.inl hc)
      · exact .inr (ih hpart)

end Winnow.Text
