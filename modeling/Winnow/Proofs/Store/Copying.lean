/-
Winnow/Proofs/Store/Copying.lean

Copies of objects with all their parts.

The walk over the parts of an object goes on as long as there is fuel.  What is
left to walk, together with the parts of all objects not met yet, gets less with
every step (`unmet_append`), so the fuel suffices: nothing that can be reached
is left out (`reached_closed`).  The copies of the objects reached therefore
refer to one another only, and a sound store stays sound (`copy_sound`).
-/
import Mathlib.Algebra.BigOperators.Group.Finset.Basic
import Winnow.Proofs.Store.Changing

namespace Winnow

namespace Store

variable {s : Store} {i : Item} {a b : Nat} {met toVisit : List Nat} {fuel : Nat}

/-! ### What is left to walk -/

/-- The addresses in the object at an address. -/
def partsAt (s : Store) (a : Nat) : List Nat :=
  ((s.cell? a).map fun c => c.items.filterMap Item.address?).getD []

/-- How many items there are in the object at an address. -/
def linksAt (s : Store) (a : Nat) : Nat := ((s.cell? a).map fun c => c.items.length).getD 0

/-- How many items there are in the objects that have not been met. -/
def unmet (s : Store) (met : List Nat) : Nat :=
  ∑ a ∈ Finset.range s.size \ met.toFinset, s.linksAt a

theorem length_partsAt_le (s : Store) (a : Nat) : (s.partsAt a).length ≤ s.linksAt a := by
  unfold partsAt linksAt
  cases s.cell? a with
  | none => exact Nat.le_refl _
  | some c => exact List.length_filterMap_le _ _

/-- Meeting an object takes its items out of those not met. -/
theorem unmet_append (ha : a ∉ met) : s.unmet (met ++ [a]) + s.linksAt a ≤ s.unmet met := by
  unfold unmet
  have hset : (met ++ [a]).toFinset = insert a met.toFinset := by
    rw [List.toFinset_append, List.toFinset_cons, List.toFinset_nil, Finset.union_comm]
    rfl
  rw [hset, Finset.sdiff_insert]
  by_cases hsize : a < s.size
  · have hmem : a ∈ Finset.range s.size \ met.toFinset := by
      rw [Finset.mem_sdiff, Finset.mem_range, List.mem_toFinset]
      exact ⟨hsize, ha⟩
    exact Nat.le_of_eq (Finset.sum_erase_add _ _ hmem)
  · have hzero : s.linksAt a = 0 := by
      have hcell : s.cell? a = none := Array.getElem?_eq_none (Nat.le_of_not_lt hsize)
      unfold linksAt
      rw [hcell]
      rfl
    have hout : a ∉ Finset.range s.size \ met.toFinset := fun hmem =>
      hsize (Finset.mem_range.mp (Finset.mem_sdiff.mp hmem).1)
    rw [hzero, Finset.erase_eq_of_notMem hout]
    exact Nat.le_refl _

theorem foldl_eq_sum (cells : List Cell) (f : Cell → Nat) (n : Nat) :
    cells.foldl (fun n c => n + f c) n
      = n + ∑ a ∈ Finset.range cells.length, ((cells[a]?).map f).getD 0 := by
  induction cells generalizing n with
  | nil => rfl
  | cons c rest ih =>
    rw [List.foldl_cons, ih, List.length_cons, Finset.sum_range_succ', Nat.add_assoc]
    exact congrArg (n + ·) (Nat.add_comm _ _)

/-- All items of a store are not met at first, and the fuel of `reached` covers
them. -/
theorem unmet_nil : s.unmet [] = s.cells.foldl (fun n c => n + c.items.length) 0 := by
  rw [← Array.foldl_toList, foldl_eq_sum, Nat.zero_add, Array.length_toList]
  unfold unmet linksAt cell?
  rw [List.toFinset_nil, Finset.sdiff_empty]
  simp only [Array.getElem?_toList]
  rfl

theorem exists_of_mem_partsAt (h : b ∈ s.partsAt a) :
    ∃ c, s.cell? a = some c ∧ .object b ∈ c.items := by
  unfold partsAt at h
  cases hc : s.cell? a with
  | none =>
    rw [hc] at h
    cases h
  | some c =>
    rw [hc] at h
    obtain ⟨j, hj, hb⟩ := List.mem_filterMap.mp h
    cases j with
    | scalar x => cases hb
    | object d =>
      cases hb
      exact ⟨c, rfl, hj⟩

theorem Sound.lt_of_mem_partsAt (hs : s.Sound) (h : b ∈ s.partsAt a) : b < s.size := by
  obtain ⟨c, hc, hb⟩ := exists_of_mem_partsAt h
  exact (hs a c hc).holds _ hb

/-! ### The walk -/

theorem reachedFrom_nil (s : Store) (fuel : Nat) (met : List Nat) :
    s.reachedFrom fuel met [] = met := by cases fuel <;> rfl

/-- Fuel for what is left is fuel for what is left after another object has been met: its items
leave those not met, and no more than these are to be visited. -/
theorem fuel_after_meeting {rest : List Nat} (ha : a ∉ met)
    (hfuel : s.unmet met + (a :: rest).length ≤ fuel + 1) :
    s.unmet (met ++ [a]) + (s.partsAt a ++ rest).length ≤ fuel := by
  have hless := unmet_append (s := s) ha
  have hparts := s.length_partsAt_le a
  rw [List.length_cons] at hfuel
  rw [List.length_append]
  omega

/-- The fuel of `reached` is enough. -/
theorem fuel_of_reached (s : Store) (i : Item) :
    s.unmet [] + i.address?.toList.length
      ≤ s.cells.foldl (fun n c => n + c.items.length) 0 + 2 := by
  have hlength : i.address?.toList.length ≤ 1 := by
    cases i with
    | scalar x => exact Nat.zero_le _
    | object a => exact Nat.le_refl _
  rw [unmet_nil]
  omega

/-- **The walk leaves nothing out** when there is fuel for what is left. -/
theorem reachedFrom_closed (hfuel : s.unmet met + toVisit.length ≤ fuel)
    (hmet : ∀ a ∈ met, ∀ b ∈ s.partsAt a, b ∈ met ∨ b ∈ toVisit) :
    (∀ a ∈ met ++ toVisit, a ∈ s.reachedFrom fuel met toVisit) ∧
      ∀ a ∈ s.reachedFrom fuel met toVisit, ∀ b ∈ s.partsAt a,
        b ∈ s.reachedFrom fuel met toVisit := by
  fun_induction Store.reachedFrom s fuel met toVisit with
  | case1 toVisit met =>
    have hempty : toVisit = [] := List.length_eq_zero_iff.mp (by omega)
    subst hempty
    rw [List.append_nil]
    exact ⟨fun a ha => ha, fun a ha b hb => (hmet a ha b hb).resolve_right nofun⟩
  | case2 met =>
    rw [List.append_nil]
    exact ⟨fun a ha => ha, fun a ha b hb => (hmet a ha b hb).resolve_right nofun⟩
  | case3 fuel met a rest hmem ih =>
    -- met before, so its parts are accounted for
    have ha : a ∈ met := List.contains_iff_mem.mp hmem
    rw [List.length_cons] at hfuel
    have hmet' : ∀ c ∈ met, ∀ b ∈ s.partsAt c, b ∈ met ∨ b ∈ rest := by
      intro c hc b hb
      rcases hmet c hc b hb with hb | hb
      · exact .inl hb
      · rcases List.mem_cons.mp hb with rfl | hb
        · exact .inl ha
        · exact .inr hb
    obtain ⟨hall, hclosed⟩ := ih (by omega) hmet'
    refine ⟨fun c hc => hall c ?_, hclosed⟩
    rcases List.mem_append.mp hc with hc | hc
    · exact List.mem_append_left _ hc
    · rcases List.mem_cons.mp hc with rfl | hc
      · exact List.mem_append_left _ ha
      · exact List.mem_append_right _ hc
  | case4 fuel met a rest hmem parts ih =>
    have ha : a ∉ met := fun ha => hmem (List.contains_iff_mem.mpr ha)
    have hfuel' : s.unmet (met ++ [a]) + (parts ++ rest).length ≤ fuel :=
      fuel_after_meeting ha hfuel
    have hmet' : ∀ c ∈ met ++ [a], ∀ b ∈ s.partsAt c, b ∈ met ++ [a] ∨ b ∈ parts ++ rest := by
      intro c hc b hb
      rcases List.mem_append.mp hc with hc | hc
      · rcases hmet c hc b hb with hb | hb
        · exact .inl (List.mem_append_left _ hb)
        · rcases List.mem_cons.mp hb with rfl | hb
          · exact .inl (List.mem_append_right _ List.mem_cons_self)
          · exact .inr (List.mem_append_right _ hb)
      · rw [List.mem_singleton.mp hc] at hb
        exact .inr (List.mem_append_left _ hb)
    obtain ⟨hall, hclosed⟩ := ih hfuel' hmet'
    refine ⟨fun c hc => hall c ?_, hclosed⟩
    rcases List.mem_append.mp hc with hc | hc
    · exact List.mem_append_left _ (List.mem_append_left _ hc)
    · rcases List.mem_cons.mp hc with rfl | hc
      · exact List.mem_append_left _ (List.mem_append_right _ List.mem_cons_self)
      · exact List.mem_append_right _ (List.mem_append_right _ hc)

/-- What holds of all objects that are met or to be visited, and of the parts of an object where
it holds of the object, holds of all that the walk meets. -/
theorem reachedFrom_preserves {p : Nat → Prop} (hparts : ∀ a, p a → ∀ b ∈ s.partsAt a, p b)
    (hmet : ∀ a ∈ met, p a) (hvisit : ∀ a ∈ toVisit, p a) :
    ∀ a ∈ s.reachedFrom fuel met toVisit, p a := by
  fun_induction Store.reachedFrom s fuel met toVisit with
  | case1 => exact hmet
  | case2 => exact hmet
  | case3 fuel met a rest hmem ih => exact ih hmet (List.forall_mem_cons.mp hvisit).2
  | case4 fuel met a rest hmem parts ih =>
    obtain ⟨ha, hrest⟩ := List.forall_mem_cons.mp hvisit
    refine ih (List.forall_mem_append.mpr ⟨hmet, ?_⟩) (List.forall_mem_append.mpr ⟨?_, hrest⟩)
    · intro b hb
      rw [List.mem_singleton.mp hb]
      exact ha
    · exact hparts a ha

/-- What is reached holds all that can be reached from it. -/
theorem reached_closed (s : Store) (i : Item) :
    (∀ a, i = .object a → a ∈ s.reached i) ∧
      ∀ a ∈ s.reached i, ∀ b ∈ s.partsAt a, b ∈ s.reached i := by
  obtain ⟨hall, hclosed⟩ := reachedFrom_closed (s.fuel_of_reached i) nofun
  refine ⟨fun a hi => hall a ?_, hclosed⟩
  rw [hi]
  exact List.mem_singleton_self a

/-- What holds of an object, and of parts where it holds of the whole, holds of all that is
reached. -/
theorem forall_mem_reached {p : Nat → Prop} (hparts : ∀ a, p a → ∀ b ∈ s.partsAt a, p b)
    (hi : ∀ a, i = .object a → p a) : ∀ a ∈ s.reached i, p a := by
  refine reachedFrom_preserves hparts nofun fun a ha => hi a ?_
  cases i with
  | scalar x => cases ha
  | object b => rw [List.mem_singleton.mp ha]

theorem reached_lt (hs : s.Sound) (hi : s.Holds i) : ∀ a ∈ s.reached i, a < s.size := by
  refine forall_mem_reached (fun a _ b hb => hs.lt_of_mem_partsAt hb) ?_
  rintro a rfl
  exact hi

/-! ### Copying -/

/-- A cell fits after its items have been changed for others that are held. -/
theorem Fits.map {t : Store} {c : Cell} {f : Item → Item} (hc : s.Fits c)
    (hf : ∀ j ∈ c.items, t.Holds (f j)) : t.Fits (c.map f) := by
  cases c with
  | list items => exact fits_list (List.forall_mem_map.mpr hf)
  | tuple items => exact fits_tuple (List.forall_mem_map.mpr hf)
  | mapping entries =>
    refine fits_mapping.mpr ⟨List.forall_mem_map.mpr fun e he => ?_, ?_⟩
    · exact hf e.2 (List.mem_map_of_mem he)
    · apply (hc.distinct entries rfl).of_keys
      rw [List.map_map]
      rfl
  | set members => exact fits_set

/-- The copies of the cells at addresses, where copied objects begin at the end
of the store. -/
def copies (s : Store) (old : List Nat) : List Cell :=
  old.filterMap fun a => (s.cell? a).map (·.map (moved s.size old))

theorem length_copies {old : List Nat} (hold : ∀ a ∈ old, a < s.size) :
    (s.copies old).length = old.length := by
  refine List.filterMap_length_eq_length.mpr fun a ha => ?_
  obtain ⟨c, hc⟩ := exists_cell? (hold a ha)
  rw [hc]
  rfl

theorem getElem?_copies {old : List Nat} (hold : ∀ a ∈ old, a < s.size) (k : Nat) :
    (s.copies old)[k]? = (old[k]?).bind fun a => (s.cell? a).map (·.map (moved s.size old)) := by
  have hrest (f : Cell → Cell) (row : List Nat) (hrow : ∀ a ∈ row, a < s.size) (k : Nat) :
      (row.filterMap fun a => (s.cell? a).map f)[k]?
        = (row[k]?).bind fun a => (s.cell? a).map f := by
    induction row generalizing k with
    | nil => rfl
    | cons a rest ih =>
      obtain ⟨ha, hrest⟩ := List.forall_mem_cons.mp hrow
      obtain ⟨c, hc⟩ := exists_cell? ha
      rw [List.filterMap_cons_some (by rw [hc]; rfl)]
      cases k with
      | zero => simp [hc]
      | succ k => exact ih hrest k
  exact hrest _ old hold k

theorem growsTo_copy (s : Store) (i : Item) : s.GrowsTo (s.copy i).2 := by
  intro a c hc
  have ha := lt_size_of_cell? hc
  show (s.cells ++ (s.copies (s.reached i)).toArray)[a]? = some c
  rw [Array.getElem?_append_left ha]
  exact hc

theorem size_copy (hs : s.Sound) (hi : s.Holds i) :
    (s.copy i).2.size = s.size + (s.reached i).length := by
  show (s.cells ++ (s.copies (s.reached i)).toArray).size = _
  rw [Array.size_append, ← length_copies (reached_lt hs hi)]
  rfl

/-- The copies stand behind all other cells, in the order of what they are copies of. -/
theorem cell?_copy (hs : s.Sound) (hi : s.Holds i) (k : Nat) :
    (s.copy i).2.cell? (s.size + k) = ((s.reached i)[k]?).bind fun a =>
      (s.cell? a).map (·.map (moved s.size (s.reached i))) := by
  show (s.cells ++ (s.copies (s.reached i)).toArray)[s.cells.size + k]? = _
  rw [Array.getElem?_append_right (Nat.le_add_right _ _), Nat.add_sub_cancel_left,
    List.getElem?_toArray, getElem?_copies (reached_lt hs hi)]

/-- A copy of a mapping is one. -/
theorem isSome_entries?_copy (hs : s.Sound) (h : (s.entries? i).isSome = true) :
    ((s.copy i).2.entries? (s.copy i).1).isSome = true := by
  obtain ⟨entries, hentries⟩ := Option.isSome_iff_exists.mp h
  obtain ⟨a, rfl, hcell⟩ := entries?_eq_some_iff.mp hentries
  have hi : s.Holds (.object a) := lt_size_of_cell? hcell
  have hmem := (reached_closed s (.object a)).1 a rfl
  have hcopied := cell?_copy hs hi ((s.reached (.object a)).idxOf a)
  rw [List.getElem?_idxOf hmem, Option.bind_some, hcell, Option.map_some] at hcopied
  exact Option.isSome_iff_exists.mpr ⟨_, entries?_eq_some_iff.mpr ⟨_, rfl, hcopied⟩⟩

/-- A copy of a sound store's item is held, and the store stays sound. -/
theorem copy_sound (hs : s.Sound) (hi : s.Holds i) :
    (s.copy i).2.Sound ∧ (s.copy i).2.Holds (s.copy i).1 := by
  obtain ⟨hroot, hclosed⟩ := reached_closed s i
  have hsize := size_copy hs hi
  have hgrows := growsTo_copy s i
  -- what takes the place of an item that is reached is one of the copies
  have hmoved (j : Item) (hj : ∀ a, j = .object a → a ∈ s.reached i) :
      (s.copy i).2.Holds (moved s.size (s.reached i) j) := by
    cases j with
    | scalar x => trivial
    | object a =>
      show s.size + (s.reached i).idxOf a < (s.copy i).2.size
      have hlt := List.idxOf_lt_length_of_mem (hj a rfl)
      omega
  refine ⟨fun a c hc => ?_, hmoved i hroot⟩
  by_cases ha : a < s.size
  · rw [hgrows.cell?_eq ha] at hc
    exact (hs a c hc).mono hgrows.size_le
  · have hc' : (s.cells ++ (s.copies (s.reached i)).toArray)[a]? = some c := hc
    rw [Array.getElem?_append_right (Nat.le_of_not_lt ha), List.getElem?_toArray] at hc'
    obtain ⟨b, hb, hcopy⟩ := List.mem_filterMap.mp (List.mem_of_getElem? hc')
    obtain ⟨d, hd, rfl⟩ := Option.map_eq_some_iff.mp hcopy
    refine (hs b d hd).map fun j hj => hmoved j ?_
    rintro e rfl
    apply hclosed b hb e
    unfold partsAt
    rw [hd]
    exact List.mem_filterMap.mpr ⟨.object e, hj, rfl⟩

end Store

end Winnow
