/-
Winnow/Proofs/Store/Shifting.lean

The same done in a store that has grown.

When something is done once more, the cells that it adds come behind those that have
been added since.  So the two stores are not equal, but one is the other with a gap:
up to an address the cells are in the same place, and from there on they come later by
a constant number (`Item.shifted`, `ShiftsTo`).  Adding a cell to both keeps this
(`ShiftsTo.add`), and so does merging, whose results are shifted in the same way
(`ShiftsTo.mergeTo`).  What is shifted is the same as before (`ShiftsTo.rearranged`).
-/
import Winnow.Proofs.Store.Merging
import Winnow.Proofs.Store.Rearranged

namespace Winnow

/-! ### Items and cells in other places -/

/-- Where a cell comes, when a number of cells is put before the one at an address. -/
def shift (base count a : Nat) : Nat := if a < base then a else a + count

/-- An item when a number of cells is put before the one at an address. -/
def Item.shifted (base count : Nat) : Item → Item
  | .scalar x => .scalar x
  | .object a => .object (shift base count a)

/-- Entries when a number of cells is put before the one at an address. -/
def Entries.shifted (base count : Nat) (entries : List (Value × Item)) : List (Value × Item) :=
  entries.map fun (k, v) => (k, v.shifted base count)

theorem Entries.insert_shifted (base count : Nat) (key : Value) (i : Item)
    (entries : List (Value × Item)) :
    insert key (i.shifted base count) (shifted base count entries)
      = shifted base count (insert key i entries) :=
  insert_map (Item.shifted base count) key i entries

theorem Cell.rearranged_map {R : Item → Item → Prop} {f : Item → Item} {c : Cell}
    (h : ∀ i ∈ c.items, R i (f i)) : c.Rearranged R (c.map f) := by
  cases c with
  | list items => exact .list (List.forall₂_map_right_iff.mpr (List.forall₂_same.mpr h))
  | tuple items => exact .tuple (List.forall₂_map_right_iff.mpr (List.forall₂_same.mpr h))
  | mapping entries =>
    have hall : ∀ e ∈ entries, R e.2 (f e.2) := fun e he => h e.2 (List.mem_map_of_mem he)
    refine .mapping (fun e he => ⟨_, List.mem_map_of_mem he, rfl, hall e he⟩) fun d hd => ?_
    obtain ⟨e, he, rfl⟩ := List.mem_map.mp hd
    exact ⟨e, he, rfl, hall e he⟩
  | set members => exact .set members

namespace Store

variable {s t u : Store} {i : Item} {c : Cell} {base count : Nat}
  {lower upper merged : List (Value × Item)}

theorem shifted_of_holds (hi : s.Holds i) (h : s.size ≤ base) : i.shifted base count = i := by
  cases i with
  | scalar x => rfl
  | object a => exact congrArg Item.object (if_pos (Nat.lt_of_lt_of_le hi h))

theorem map_shifted_of_fits (hc : s.Fits c) (h : s.size ≤ base) :
    c.map (Item.shifted base count) = c := by
  have hsame : ∀ i ∈ c.items, i.shifted base count = i := fun i hi =>
    shifted_of_holds (hc.holds i hi) h
  cases c with
  | list items => exact congrArg Cell.list ((List.map_congr_left hsame).trans (List.map_id _))
  | tuple items => exact congrArg Cell.tuple ((List.map_congr_left hsame).trans (List.map_id _))
  | mapping entries =>
    refine congrArg Cell.mapping ((List.map_congr_left fun e he => ?_).trans (List.map_id _))
    exact Prod.ext rfl (hsame e.2 (List.mem_map_of_mem he))
  | set members => rfl

/-! ### Stores with a gap -/

/-- A store has the cells of another, with a number of cells put before the one at an
address. -/
structure ShiftsTo (base count : Nat) (s u : Store) : Prop where
  base_le : base ≤ s.size
  size_eq : u.size = s.size + count
  cell?_eq : ∀ a,
    u.cell? (shift base count a) = (s.cell? a).map (Cell.map (Item.shifted base count))

/-- A store that has grown is the store itself with a gap at its end. -/
theorem shiftsTo_of_growsTo (hs : s.Sound) (h : s.GrowsTo u) :
    ShiftsTo s.size (u.size - s.size) s u := by
  have hsize := h.size_le
  refine ⟨Nat.le_refl _, by omega, fun a => ?_⟩
  unfold shift
  split
  · rename_i ha
    rw [h.cell?_eq ha]
    obtain ⟨c, hc⟩ := exists_cell? ha
    rw [hc, Option.map_some, map_shifted_of_fits (hs a c hc) (Nat.le_refl _)]
  · have hnone : s.cell? a = none := Array.getElem?_eq_none (by show s.size ≤ a; omega)
    have hnone' : u.cell? (a + (u.size - s.size)) = none :=
      Array.getElem?_eq_none (by show u.size ≤ _; omega)
    rw [hnone, hnone']
    rfl

namespace ShiftsTo

theorem size (h : ShiftsTo base count s u) : shift base count s.size = u.size := by
  rw [shift, if_neg (Nat.not_lt.mpr h.base_le), h.size_eq]

/-- Adding a cell to both. -/
theorem add (h : ShiftsTo base count s u) (c : Cell) :
    ShiftsTo base count (s.add c).2 (u.add (c.map (Item.shifted base count))).2 := by
  refine ⟨?_, ?_, fun a => ?_⟩
  · rw [size_add]
    exact Nat.le_succ_of_le h.base_le
  · rw [size_add, size_add, h.size_eq]
    omega
  · have hold := h.cell?_eq a
    show (u.cells.push (c.map _))[shift base count a]? = ((s.cells.push c)[a]?).map _
    rw [Array.getElem?_push, Array.getElem?_push]
    by_cases ha : a = s.cells.size
    · rw [if_pos ha, if_pos (ha ▸ h.size)]
      rfl
    · have hne : shift base count a ≠ u.cells.size := by
        have hsize : u.cells.size = s.cells.size + count := h.size_eq
        have hle : base ≤ s.cells.size := h.base_le
        unfold shift
        split <;> omega
      rw [if_neg ha, if_neg hne]
      exact hold

theorem entries?_eq (h : ShiftsTo base count s u) (i : Item) :
    u.entries? (i.shifted base count) = (s.entries? i).map (Entries.shifted base count) := by
  cases i with
  | scalar x => rfl
  | object a =>
    have hcell := h.cell?_eq a
    unfold entries?
    rw [Item.shifted, Item.address?, Item.address?, Option.bind_some, Option.bind_some, hcell]
    cases s.cell? a with
    | none => rfl
    | some c => cases c <;> rfl

theorem bind_entries?_eq (h : ShiftsTo base count s u) (key : Value) :
    (Entries.find? key (Entries.shifted base count lower)).bind u.entries?
      = ((Entries.find? key lower).bind s.entries?).map (Entries.shifted base count) := by
  rw [Entries.shifted, Entries.find?_map]
  cases Entries.find? key lower with
  | none => rfl
  | some i => exact h.entries?_eq i

/-- **Merging in the other store comes to the same**, in other places. -/
theorem mergeTo {depth : Nat} (h : ShiftsTo base count s u)
    (hmerge : Store.mergeTo depth lower upper s = some (merged, t)) :
    ∃ v, Store.mergeTo depth (Entries.shifted base count lower) (Entries.shifted base count upper) u
      = some (Entries.shifted base count merged, v) ∧ ShiftsTo base count t v := by
  -- the outer induction is on the levels, the inner one on the entries of a level
  induction depth generalizing s t u lower upper merged with
  | zero => cases hmerge
  | succ depth ihDepth =>
    induction upper generalizing s u lower with
    | nil =>
      cases hmerge
      exact ⟨u, rfl, h⟩
    | cons e rest ihRest =>
      obtain ⟨key, value⟩ := e
      show ∃ v, Store.mergeTo (depth + 1) (Entries.shifted base count lower)
        ((key, value.shifted base count) :: Entries.shifted base count rest) u = _ ∧ _
      rcases mergeTo_cons_cases hmerge with
        ⟨hnone, hrest⟩ | ⟨under, above, inner, w, hunder, habove, hinner, hrest⟩
      · obtain ⟨v, hv, hshifts⟩ := ihRest h hrest
        refine ⟨v, ?_, hshifts⟩
        rw [mergeTo_cons_replace, Entries.insert_shifted]
        · exact hv
        · rw [h.bind_entries?_eq, h.entries?_eq]
          exact hnone.imp (congrArg (Option.map _)) (congrArg (Option.map _))
      · obtain ⟨w', hinner', hw⟩ := ihDepth h hinner
        obtain ⟨v, hv, hshifts⟩ := ihRest (hw.add (.mapping inner)) hrest
        refine ⟨v, ?_, hshifts⟩
        have hfresh : (w'.add (.mapping (Entries.shifted base count inner))).1
            = (w.add (.mapping inner)).1.shifted base count := congrArg Item.object hw.size.symm
        rw [mergeTo_cons_nest ((h.bind_entries?_eq key).trans (congrArg (Option.map _) hunder))
          ((h.entries?_eq value).trans (congrArg (Option.map _) habove)) hinner', hfresh,
          Entries.insert_shifted]
        exact hv

/-- What is shifted is the same as before. -/
theorem rearranged (h : ShiftsTo base count s u) (hs : s.Sound) (hi : s.Holds i) :
    s.Rearranged u i (i.shifted base count) := by
  refine ⟨fun i j => s.Holds i ∧ j = i.shifted base count, ?_, hi, rfl⟩
  rintro i _ ⟨hi, rfl⟩
  cases i with
  | scalar x => exact .scalar x
  | object a =>
    obtain ⟨c, hc⟩ := exists_cell? hi
    refine .object hc ((h.cell?_eq a).trans (congrArg (Option.map _) hc)) ?_
    exact Cell.rearranged_map fun j hj => ⟨(hs a c hc).holds j hj, rfl⟩

end ShiftsTo

end Store

end Winnow
