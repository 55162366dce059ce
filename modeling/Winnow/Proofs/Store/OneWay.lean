/-
Winnow/Proofs/Store/OneWay.lean

Sections that hold one thing only.

Putting an item under a path of an empty section makes a new section at every part of
the way, each with the next key and no other (`exists_oneWay_of_assign`).  What was there
before is left alone.  Such a way can be followed (`OneWay.find?`), it stays while the
store grows (`OneWay.mono`), and it goes just as deep as the path is long
(`OneWay.nestsWithin`).
-/
import Winnow.Proofs.Store.Assigning
import Winnow.Proofs.Store.Merging

namespace Winnow.Store

variable {s t : Store} {i value : Item} {a depth : Nat} {key : String} {p path : List String}

/-- An item is under a path, and the sections on the way have the next key and no other. -/
def OneWay (s : Store) (value : Item) : Item → List String → Prop
  | i, [] => i = value
  | i, key :: rest => ∃ next, s.entries? i = some [(.text key, next)] ∧ s.OneWay value next rest

/-- New sections are made all along the way, by induction on the path: the section that is
empty gets the next key, and the section behind this key is empty and new. -/
theorem exists_oneWay_of_assign (h : s.entries? (.object a) = some []) (hpath : path ≠ [])
    (value : Item) :
    ∃ t, s.assign value (.object a) path = (.ok (), t) ∧ t.OneWay value (.object a) path ∧
      ∀ b, b < s.size → b ≠ a → t.cell? b = s.cell? b := by
  induction path generalizing s a with
  | nil => exact absurd rfl hpath
  | cons key rest ih =>
    cases rest with
    | nil =>
      refine ⟨s.putEntry a [] key value, ?_, ⟨value, entries?_putEntry_self h, rfl⟩,
        fun b _ hne => cell?_put_of_ne hne.symm⟩
      rw [assign, h]
      rfl
    | cons next rest =>
      have hgrown : (s.add (.mapping [])).2.entries? (.object a) = some [] :=
        (growsTo_add s _).entries?_of_eq_some h
      have ha : a < s.size := holds_of_entries? h
      have hsize : (s.addSection a [] key).size = s.size + 1 := size_put.trans size_add
      have hempty : (s.addSection a [] key).entries? (.object s.size) = some [] :=
        entries?_addSection_new h
      obtain ⟨t, hassign, hway, hframe⟩ := ih hempty (List.cons_ne_nil next rest)
      refine ⟨t, ?_, ⟨.object s.size, ?_, hway⟩, fun b hb hne => ?_⟩
      · rw [assign, h]
        · exact hassign
        · exact List.cons_ne_nil next rest
      · rw [entries?_congr (hframe a (by omega) (Nat.ne_of_lt ha))]
        exact entries?_putEntry_self hgrown
      · rw [hframe b (by omega) (Nat.ne_of_lt hb), addSection, putEntry, cell?_put_of_ne hne.symm,
          (growsTo_add s _).cell?_eq hb]

/-- On the way the rest of the way is found. -/
theorem OneWay.find? {after : List String} (h : s.OneWay value i (p ++ after)) :
    ∃ j, s.find? i p = some j ∧ s.OneWay value j after := by
  induction p generalizing i with
  | nil => exact ⟨i, rfl, h⟩
  | cons key rest ih =>
    obtain ⟨next, hentries, hway⟩ := h
    obtain ⟨j, hj, hafter⟩ := ih hway
    refine ⟨j, ?_, hafter⟩
    rw [find?_cons, hentries, Option.bind_some, (Entries.find?_text_cons _ _ _).1 rfl,
      Option.bind_some, hj]

theorem OneWay.mono (h : s.OneWay value i path) (hgrows : s.GrowsTo t) :
    t.OneWay value i path := by
  induction path generalizing i with
  | nil => exact h
  | cons key rest ih =>
    obtain ⟨next, hentries, hway⟩ := h
    exact ⟨next, hgrows.entries?_of_eq_some hentries, ih hway⟩

theorem OneWay.isSome_entries? (h : s.OneWay value i path) (hpath : path ≠ []) :
    (s.entries? i).isSome = true := by
  cases path with
  | nil => exact absurd rfl hpath
  | cons key rest =>
    obtain ⟨next, hentries, -⟩ := h
    rw [hentries]
    rfl

/-! ### Depth -/

theorem nestsWithin_of_entries {entries : List (Value × Item)} (hi : s.entries? i = some entries)
    (h : ∀ e ∈ entries, s.NestsWithin depth e.2) : s.NestsWithin (depth + 1) i := by
  intro other hother
  cases hi.symm.trans hother
  exact h

theorem nestsWithin_of_not_mapping (hi : s.entries? i = none) (depth : Nat) :
    s.NestsWithin depth i := by
  cases depth with
  | zero => exact hi
  | succ depth =>
    intro entries hentries
    cases hi.symm.trans hentries

/-- What nests within a depth nests within a greater one. -/
theorem NestsWithin.mono {deeper : Nat} (h : s.NestsWithin depth i) (hle : depth ≤ deeper) :
    s.NestsWithin deeper i := by
  induction depth generalizing i deeper with
  | zero => exact nestsWithin_of_not_mapping h deeper
  | succ depth ih =>
    obtain ⟨deeper, rfl⟩ := Nat.exists_eq_add_of_lt hle
    intro entries hentries e he
    exact ih (h entries hentries e he) (by omega)

/-- The sections on a way nest as deep as the way is long, and what is at the end comes on
top of that. -/
theorem OneWay.nestsWithin (h : s.OneWay value i path) (hvalue : s.NestsWithin depth value) :
    s.NestsWithin (depth + path.length) i := by
  induction path generalizing i with
  | nil =>
    cases h
    exact hvalue
  | cons key rest ih =>
    obtain ⟨next, hentries, hway⟩ := h
    exact nestsWithin_of_entries hentries (List.forall_mem_singleton.mpr (ih hway))

end Winnow.Store
