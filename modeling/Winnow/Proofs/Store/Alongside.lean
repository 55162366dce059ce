/-
Winnow/Proofs/Store/Alongside.lean

What is done to twins, one step of a store after another.

Each operation on stores is followed in two of them at once (`Alongside`): new objects
come into the stores (`Twins.adopt`, `Twins.place`), items are put under paths, with the same
outcome (`Twins.assign`), mappings are merged, or are too deep in both (`Twins.mergeTo`), and
objects are copied (`Twins.copy`).  Each time the induction is on what the operation
itself goes through.

A copy walks over all that can be reached.  It has more fuel in the greater store, but
enough in both, so the same is met in the same order (`Twins.reachedFrom`).
-/
import Winnow.Proofs.Store.Copying
import Winnow.Proofs.Store.Shifting
import Winnow.Proofs.Store.Twins
import Winnow.Store.Stored

namespace Winnow.Store

variable {P : Pairing} {s t : Store} {i j value value' : Item}

/-! ### New objects -/

theorem cells_add_append (s : Store) (c : Cell) (rest : List Cell) :
    (s.add c).2.cells ++ rest.toArray = s.cells ++ (c :: rest).toArray := by
  apply Array.ext'
  show (s.cells.push c ++ rest.toArray).toList = _
  rw [Array.toList_append, Array.toList_push, Array.toList_append, List.append_assoc,
    List.singleton_append]

/-- Several new cells. -/
theorem Twins.append {cells cells' : List Cell} (h : Twins P s t)
    (hcells : List.Forall₂ (Cell.Paired P) cells cells') :
    Alongside P s t { s with cells := s.cells ++ cells.toArray }
      { t with cells := t.cells ++ cells'.toArray } := by
  induction hcells generalizing s t with
  | nil =>
    rw [Array.append_empty, Array.append_empty]
    exact .refl h
  | @cons c d rest rest' hcd _ ih =>
    have hadd := h.add hcd
    have hrest := ih hadd.twins
    rw [cells_add_append, cells_add_append] at hrest
    exact hadd.trans hrest

/-- Puts a value behind all cells of a store, together with the store that it is in: a new object.
Parts of it may be shared within it, and it may be a part of itself. -/
def adopt (s : Store) (v : Stored) : Item × Store :=
  (v.item.shifted 0 s.size, { s with
    cells := s.cells ++ (v.store.cells.toList.map (Cell.map (Item.shifted 0 s.size))).toArray })

/-- A new object of twins. -/
theorem Twins.adopt (h : Twins P s t) (v : Stored) :
    Item.Paired P (s.adopt v).1 (t.adopt v).1
      ∧ Alongside P s t (s.adopt v).2 (t.adopt v).2 := by
  have hitem (i : Item) : Item.Paired P (i.shifted 0 s.size) (i.shifted 0 t.size) := by
    cases i with
    | scalar x => exact .scalar x
    | object a =>
      have haligned := h.aligned a
      rw [Nat.add_comm, Nat.add_comm t.size] at haligned
      exact .object haligned
  refine ⟨hitem v.item, h.append ?_⟩
  have hcells : List.Forall₂ (Cell.Paired Eq) v.store.cells.toList v.store.cells.toList :=
    List.forall₂_same.mpr fun c _ => Cell.paired_refl (fun _ => rfl) c
  refine List.rel_map (fun c d hcd => hcd.map ?_) hcells
  rintro i _ (_ | rfl)
  · exact hitem _
  · exact hitem _

theorem size_adopt (s : Store) (v : Stored) : (s.adopt v).2.size = s.size + v.store.size := by
  refine Array.size_append.trans (congrArg (s.cells.size + ·) ?_)
  exact List.size_toArray.trans ((List.length_map _).trans Array.length_toList)

theorem growsTo_adopt (s : Store) (v : Stored) : s.GrowsTo (s.adopt v).2 := by
  intro a c hc
  show (s.cells ++ _)[a]? = some c
  rw [Array.getElem?_append_left (lt_size_of_cell? hc)]
  exact hc

theorem cell?_adopt (s : Store) (v : Stored) (a : Nat) :
    (s.adopt v).2.cell? (s.size + a)
      = (v.store.cell? a).map (Cell.map (Item.shifted 0 s.size)) := by
  show (s.cells ++ (v.store.cells.toList.map _).toArray)[s.cells.size + a]? = _
  rw [Array.getElem?_append_right (Nat.le_add_right _ _), Nat.add_sub_cancel_left,
    List.getElem?_toArray, List.getElem?_map, Array.getElem?_toList]
  rfl

/-- A new object is held, and the store stays sound, if the value was held in a sound one. -/
theorem adopt_sound (hs : s.Sound) {v : Stored} (hstore : v.store.Sound)
    (hitem : v.store.Holds v.item) :
    s.LeadsTo (s.adopt v).2 ∧ (s.adopt v).2.Holds (s.adopt v).1 := by
  have hgrows := growsTo_adopt s v
  have hholds (i : Item) (hi : v.store.Holds i) : (s.adopt v).2.Holds (i.shifted 0 s.size) := by
    cases i with
    | scalar x => trivial
    | object a =>
      show a + s.size < (s.adopt v).2.size
      rw [size_adopt, Nat.add_comm]
      exact Nat.add_lt_add_left hi s.size
  refine ⟨⟨hgrows.size_le, fun a c hc => ?_⟩, hholds v.item hitem⟩
  by_cases ha : a < s.size
  · rw [hgrows.cell?_eq ha] at hc
    exact (hs a c hc).mono hgrows.size_le
  · obtain ⟨k, rfl⟩ := Nat.exists_eq_add_of_le (Nat.le_of_not_lt ha)
    rw [cell?_adopt] at hc
    obtain ⟨d, hd, rfl⟩ := Option.map_eq_some_iff.mp hc
    exact (hstore k d hd).map fun i hi => hholds i ((hstore k d hd).holds i hi)

/-! ### Values -/

mutual

/-- A value that is put into twins. -/
theorem Twins.place {s t : Store} (h : Twins P s t) (v : Value) :
    Item.Paired P (s.place v).1 (t.place v).1 ∧ Alongside P s t (s.place v).2 (t.place v).2 := by
  match v with
  | .scalar x => exact ⟨.scalar x, .refl h⟩
  | .list values =>
    obtain ⟨hitems, hdone⟩ := h.placeAll values
    exact ⟨hdone.twins.paired_add _ _, hdone.trans (hdone.twins.add (.list hitems))⟩
  | .tuple values =>
    obtain ⟨hitems, hdone⟩ := h.placeAll values
    exact ⟨hdone.twins.paired_add _ _, hdone.trans (hdone.twins.add (.tuple hitems))⟩
  | .mapping entries =>
    obtain ⟨hentries, hdone⟩ := h.placeEntries entries
    exact ⟨hdone.twins.paired_add _ _, hdone.trans (hdone.twins.add (.mapping hentries))⟩
  | .set members => exact ⟨h.paired_add _ _, h.add (.set members)⟩

theorem Twins.placeAll {s t : Store} (h : Twins P s t) (values : List Value) :
    List.Forall₂ (Item.Paired P) (s.placeAll values).1 (t.placeAll values).1
      ∧ Alongside P s t (s.placeAll values).2 (t.placeAll values).2 := by
  match values with
  | [] => exact ⟨.nil, .refl h⟩
  | v :: rest =>
    obtain ⟨hitem, hdone⟩ := h.place v
    obtain ⟨hitems, hrest⟩ := hdone.twins.placeAll rest
    exact ⟨.cons hitem hitems, hdone.trans hrest⟩

theorem Twins.placeEntries {s t : Store} (h : Twins P s t) (entries : List (Value × Value)) :
    Entries.Paired P (s.placeEntries entries).1 (t.placeEntries entries).1
      ∧ Alongside P s t (s.placeEntries entries).2 (t.placeEntries entries).2 := by
  match entries with
  | [] => exact ⟨.nil, .refl h⟩
  | (k, v) :: rest =>
    obtain ⟨hitem, hdone⟩ := h.place v
    obtain ⟨hentries, hrest⟩ := hdone.twins.placeEntries rest
    exact ⟨.cons ⟨rfl, hitem⟩ hentries, hdone.trans hrest⟩

end

/-! ### Assignment -/

theorem Twins.putEntry (h : Twins P s t) {a b : Nat} (hab : P a b)
    {entries others : List (Value × Item)} (hentries : Entries.Paired P entries others)
    (hvalue : Item.Paired P value value') (key : String) :
    Alongside P s t (s.putEntry a entries key value) (t.putEntry b others key value') :=
  h.put hab (.mapping (hentries.insert _ hvalue))

/-- **Putting an item under a path** succeeds in both of twins or in neither. -/
theorem Twins.assign (h : Twins P s t) (hvalue : Item.Paired P value value')
    (hi : Item.Paired P i j) (path : List String) :
    (s.assign value i path).1 = (t.assign value' j path).1
      ∧ Alongside P s t (s.assign value i path).2 (t.assign value' j path).2 := by
  induction path generalizing s t i j with
  | nil => exact ⟨rfl, .refl h⟩
  | cons key rest ih =>
    have hkind := h.kind_eq hi
    have hboth := h.entries? hi
    cases hi with
    | scalar x => cases rest <;> exact ⟨rfl, .refl h⟩
    | object hab =>
      rcases rel_cases hboth with ⟨hs, ht⟩ | ⟨entries, others, hs, ht, hentries⟩
      · cases rest <;> unfold Store.assign <;> rw [hs, ht, hkind] <;> exact ⟨rfl, .refl h⟩
      · cases rest with
        | nil =>
          unfold Store.assign
          rw [hs, ht]
          exact ⟨rfl, h.putEntry hab hentries hvalue key⟩
        | cons next rest =>
          unfold Store.assign
          rw [hs, ht]
          dsimp only [Item.address?]
          rcases rel_cases (hentries.find? (.text key)) with ⟨hs, ht⟩ | ⟨_, _, hs, ht, hnext⟩
          · rw [hs, ht]
            have hadd := h.add (.mapping .nil)
            have hfresh := h.paired_add (.mapping []) (.mapping [])
            have hput := hadd.twins.putEntry hab hentries hfresh key
            obtain ⟨houtcome, hrest⟩ := ih hput.twins hfresh
            exact ⟨houtcome, (hadd.trans hput).trans hrest⟩
          · rw [hs, ht]
            exact ih h hnext

/-! ### Merging -/

/-- Merging one entry after another. -/
theorem mergeTo_cons (depth : Nat) (base : List (Value × Item)) (key : Value) (value : Item)
    (rest : List (Value × Item)) (s : Store) :
    mergeTo (depth + 1) base ((key, value) :: rest) s =
      match (Entries.find? key base).bind s.entries?, s.entries? value with
      | some under, some above => (mergeTo depth under above s).bind fun (inner, u) =>
          mergeTo (depth + 1) (Entries.insert key (u.add (.mapping inner)).1 base) rest
            (u.add (.mapping inner)).2
      | _, _ => mergeTo (depth + 1) (Entries.insert key value base) rest s := by
  rw [mergeTo, List.foldlM_cons]
  dsimp only
  cases (Entries.find? key base).bind s.entries? with
  | none => rfl
  | some under =>
    cases s.entries? value with
    | none => rfl
    | some above =>
      dsimp only
      cases mergeTo depth under above s <;> rfl

/-- Entries that have been merged in both of twins. -/
def MergedAlongside (P : Pairing) (s t : Store) (x y : List (Value × Item) × Store) : Prop :=
  Entries.Paired P x.1 y.1 ∧ Alongside P s t x.2 y.2

/-- **Merging** is too deep in both of twins, or comes to the same. -/
theorem Twins.mergeTo (depth : Nat) {base base' upper upper' : List (Value × Item)}
    (h : Twins P s t) (hbase : Entries.Paired P base base')
    (hupper : Entries.Paired P upper upper') :
    Option.Rel (MergedAlongside P s t) (Store.mergeTo depth base upper s)
      (Store.mergeTo depth base' upper' t) := by
  -- the outer induction is on the levels, the inner one on the entries of a level
  induction depth generalizing s t base base' upper upper' with
  | zero => exact .none
  | succ depth ihDepth =>
    induction hupper generalizing s t base base' with
    | nil => exact .some ⟨hbase, .refl h⟩
    | @cons e d rest rest' hfirst _ ihRest =>
      obtain ⟨key, value⟩ := e
      obtain ⟨key', value'⟩ := d
      obtain ⟨rfl, hvalue⟩ := hfirst
      rw [mergeTo_cons, mergeTo_cons]
      have hreplace := ihRest h (hbase.insert key hvalue)
      rcases rel_cases (h.bind_entries? hbase key) with ⟨hs, ht⟩ | ⟨under, under', hs, ht, hunder⟩
      · rw [hs, ht]
        exact hreplace
      rcases rel_cases (h.entries? hvalue) with ⟨hs', ht'⟩ | ⟨above, above', hs', ht', habove⟩
      · rw [hs, ht, hs', ht']
        exact hreplace
      rw [hs, ht, hs', ht']
      dsimp only
      rcases rel_cases (ihDepth h hunder habove) with
        ⟨hs, ht⟩ | ⟨⟨inner, u⟩, ⟨inner', w⟩, hs, ht, hinner, hdone⟩
      · rw [hs, ht]
        exact .none
      · rw [hs, ht, Option.bind_some, Option.bind_some]
        have hadd := hdone.twins.add (.mapping hinner)
        have hfresh := hdone.twins.paired_add (.mapping inner) (.mapping inner')
        rcases rel_cases (ihRest hadd.twins (hbase.insert key hfresh)) with
          ⟨hs, ht⟩ | ⟨x, y, hs, ht, hentries, hrest⟩
        · rw [hs, ht]
          exact .none
        · rw [hs, ht]
          exact .some ⟨hentries, (hdone.trans hadd).trans hrest⟩

/-! ### Copies -/

variable {met met' toVisit toVisit' : List Nat} {a b : Nat}

theorem Twins.mem_iff (h : Twins P s t) (hmet : List.Forall₂ P met met') (hab : P a b) :
    a ∈ met ↔ b ∈ met' := by
  induction hmet with
  | nil => exact iff_of_false List.not_mem_nil List.not_mem_nil
  | cons hfirst _ ih =>
    rw [List.mem_cons, List.mem_cons, ih]
    refine or_congr_left ⟨?_, ?_⟩
    · rintro rfl
      exact h.left hab hfirst
    · rintro rfl
      exact h.right hab hfirst

theorem Twins.idxOf_eq (h : Twins P s t) (hmet : List.Forall₂ P met met') (hab : P a b) :
    met.idxOf a = met'.idxOf b := by
  induction hmet with
  | nil => rfl
  | @cons c d _ _ hfirst _ ih =>
    rw [List.idxOf_cons, List.idxOf_cons, ih]
    have hiff : (c == a) = (d == b) := by
      rw [Bool.eq_iff_iff, beq_iff_eq, beq_iff_eq]
      refine ⟨?_, ?_⟩
      · rintro rfl
        exact h.left hfirst hab
      · rintro rfl
        exact h.right hfirst hab
    rw [hiff]

theorem Twins.partsAt (h : Twins P s t) (hab : P a b) :
    List.Forall₂ P (s.partsAt a) (t.partsAt b) := by
  unfold Store.partsAt
  rcases rel_cases (h.cell hab) with ⟨hs, ht⟩ | ⟨c, d, hs, ht, hcd⟩ <;> rw [hs, ht]
  · exact .nil
  · refine List.rel_filterMap ?_ hcd.items
    rintro i j (_ | hab)
    · exact .none
    · exact .some hab

/-- **The walk meets the same** in twins, when there is fuel for it in both. -/
theorem Twins.reachedFrom {fuel fuel' : Nat} (h : Twins P s t)
    (hmet : List.Forall₂ P met met') (hvisit : List.Forall₂ P toVisit toVisit')
    (hfuel : s.unmet met + toVisit.length ≤ fuel)
    (hfuel' : t.unmet met' + toVisit'.length ≤ fuel') :
    List.Forall₂ P (s.reachedFrom fuel met toVisit) (t.reachedFrom fuel' met' toVisit') := by
  induction fuel generalizing fuel' met met' toVisit toVisit' with
  | zero =>
    cases hvisit with
    | nil =>
      rw [reachedFrom_nil, reachedFrom_nil]
      exact hmet
    | cons _ _ =>
      rw [List.length_cons] at hfuel
      omega
  | succ fuel ih =>
    cases hvisit with
    | nil =>
      rw [reachedFrom_nil, reachedFrom_nil]
      exact hmet
    | @cons a b rest rest' hab hrest =>
      obtain ⟨fuel', rfl⟩ : ∃ n, fuel' = n + 1 :=
        ⟨fuel' - 1, by rw [List.length_cons] at hfuel'; omega⟩
      unfold Store.reachedFrom
      by_cases ha : a ∈ met
      · rw [if_pos (List.contains_iff_mem.mpr ha),
          if_pos (List.contains_iff_mem.mpr ((h.mem_iff hmet hab).mp ha))]
        rw [List.length_cons] at hfuel hfuel'
        exact ih hmet hrest (by omega) (by omega)
      · have hb : b ∉ met' := fun hb => ha ((h.mem_iff hmet hab).mpr hb)
        rw [if_neg fun hmem => ha (List.contains_iff_mem.mp hmem),
          if_neg fun hmem => hb (List.contains_iff_mem.mp hmem)]
        exact ih (List.rel_append hmet (.cons hab .nil)) (List.rel_append (h.partsAt hab) hrest)
          (fuel_after_meeting ha hfuel) (fuel_after_meeting hb hfuel')

theorem Twins.reached (h : Twins P s t) (hi : Item.Paired P i j) :
    List.Forall₂ P (s.reached i) (t.reached j) := by
  refine h.reachedFrom .nil ?_ (s.fuel_of_reached i) (t.fuel_of_reached j)
  cases hi with
  | scalar x => exact .nil
  | object hab => exact .cons hab .nil

/-- What takes the place of an item in the copies. -/
theorem Twins.moved {old old' : List Nat} (h : Twins P s t) (hold : List.Forall₂ P old old')
    (hi : Item.Paired P i j) : Item.Paired P (moved s.size old i) (moved t.size old' j) := by
  cases hi with
  | scalar x => exact .scalar x
  | @object a b hab =>
    have hindex : P (s.size + old.idxOf a) (t.size + old'.idxOf b) :=
      h.idxOf_eq hold hab ▸ h.aligned (old.idxOf a)
    exact .object hindex

/-- Copies refer to new objects only, whatever they are copies of.  So they are paired with
themselves by every pairing of new cells. -/
theorem Twins.copy_self (h : Twins P s s) (i : Item) :
    Item.Paired P (s.copy i).1 (s.copy i).1 ∧ Alongside P s s (s.copy i).2 (s.copy i).2 := by
  have hmoved (j : Item) :
      Item.Paired P (Store.moved s.size (s.reached i) j) (Store.moved s.size (s.reached i) j) := by
    cases j with
    | scalar x => exact .scalar x
    | object a => exact .object (h.aligned _)
  refine ⟨hmoved i, h.append (List.forall₂_same.mpr fun c hc => ?_)⟩
  obtain ⟨a, -, hcopy⟩ := List.mem_filterMap.mp hc
  obtain ⟨d, -, rfl⟩ := Option.map_eq_some_iff.mp hcopy
  have hd : Cell.Paired Eq d d := Cell.paired_refl (fun _ => rfl) d
  refine hd.map ?_
  rintro j _ (_ | rfl)
  · exact hmoved _
  · exact hmoved _

/-- **Copies of twins are twins.** -/
theorem Twins.copy (h : Twins P s t) (hi : Item.Paired P i j) :
    Item.Paired P (s.copy i).1 (t.copy j).1 ∧ Alongside P s t (s.copy i).2 (t.copy j).2 := by
  have hold := h.reached hi
  refine ⟨h.moved hold hi, h.append (List.rel_filterMap ?_ hold)⟩
  intro a b hab
  dsimp only
  rcases rel_cases (h.cell hab) with ⟨hs, ht⟩ | ⟨c, d, hs, ht, hcd⟩ <;> rw [hs, ht]
  · exact .none
  · exact .some (hcd.map fun _ _ => h.moved hold)

end Winnow.Store
