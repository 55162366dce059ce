/-
Winnow/Proofs/Store/Rearranged.lean

Items that are the same but for the order of keys.

Two items, each in a store of its own, are the same but for the order of keys when
some relation holds between them that keeps scalars and kinds of cells, and holds
again between their parts: place by place in lists and tuples, key by key in
mappings (`Rearranged`).  Objects that are parts of themselves are no exception.
It is the largest such relation, so it can be opened once (`Rearranged.matches`),
and it holds whenever a relation can be given that leads to itself or to it
(`rearranged_of`).

The same is then found under every path (`Rearranged.find?`).
-/
import Mathlib.Data.List.Forall2
import Winnow.Proofs.Store.Sound

namespace Winnow

/-- Two cells hold related items: place by place, or under the same keys in any
order. -/
inductive Cell.Rearranged (R : Item → Item → Prop) : Cell → Cell → Prop
  | list {items others : List Item} : List.Forall₂ R items others →
      Rearranged R (.list items) (.list others)
  | tuple {items others : List Item} : List.Forall₂ R items others →
      Rearranged R (.tuple items) (.tuple others)
  | mapping {entries others : List (Value × Item)} :
      (∀ e ∈ entries, ∃ f ∈ others, e.1 = f.1 ∧ R e.2 f.2) →
      (∀ f ∈ others, ∃ e ∈ entries, e.1 = f.1 ∧ R e.2 f.2) →
      Rearranged R (.mapping entries) (.mapping others)
  | set (members : List Value) : Rearranged R (.set members) (.set members)

namespace Cell

variable {R S : Item → Item → Prop} {c d : Cell}

theorem Rearranged.mono (h : c.Rearranged R d) (hRS : ∀ i j, R i j → S i j) :
    c.Rearranged S d := by
  cases h with
  | list hitems => exact .list (hitems.imp hRS)
  | tuple hitems => exact .tuple (hitems.imp hRS)
  | mapping hleft hright =>
    refine .mapping (fun e he => ?_) (fun f hf => ?_)
    · obtain ⟨f, hf, hkey, hR⟩ := hleft e he
      exact ⟨f, hf, hkey, hRS _ _ hR⟩
    · obtain ⟨e, he, hkey, hR⟩ := hright f hf
      exact ⟨e, he, hkey, hRS _ _ hR⟩
  | set members => exact .set members

theorem Rearranged.symm (h : c.Rearranged R d) : d.Rearranged (fun j i => R i j) c := by
  cases h with
  | list hitems => exact .list hitems.flip
  | tuple hitems => exact .tuple hitems.flip
  | mapping hleft hright =>
    refine .mapping (fun f hf => ?_) (fun e he => ?_)
    · obtain ⟨e, he, hkey, hR⟩ := hright f hf
      exact ⟨e, he, hkey.symm, hR⟩
    · obtain ⟨f, hf, hkey, hR⟩ := hleft e he
      exact ⟨f, hf, hkey.symm, hR⟩
  | set members => exact .set members

theorem rearranged_of_items (h : ∀ i ∈ c.items, R i i) : c.Rearranged R c := by
  cases c with
  | list items => exact .list (List.forall₂_same.mpr h)
  | tuple items => exact .tuple (List.forall₂_same.mpr h)
  | mapping entries =>
    have hall : ∀ e ∈ entries, R e.2 e.2 := fun e he => h e.2 (List.mem_map_of_mem he)
    exact .mapping (fun e he => ⟨e, he, rfl, hall e he⟩) (fun e he => ⟨e, he, rfl, hall e he⟩)
  | set members => exact .set members

end Cell

namespace Store

variable {s t s' t' u : Store} {i j : Item} {R S : Item → Item → Prop}

/-- Two items are the same scalar, or cells that hold related items. -/
inductive Matches (s t : Store) (R : Item → Item → Prop) : Item → Item → Prop
  | scalar (x : Scalar) : Matches s t R (.scalar x) (.scalar x)
  | object {a b : Nat} {c d : Cell} : s.cell? a = some c → t.cell? b = some d →
      c.Rearranged R d → Matches s t R (.object a) (.object b)

theorem Matches.mono (h : s.Matches t R i j) (hRS : ∀ i j, R i j → S i j) :
    s.Matches t S i j := by
  cases h with
  | scalar x => exact .scalar x
  | object hc hd hcells => exact .object hc hd (hcells.mono hRS)

/-- Two items, each in a store, are the same but for the order of keys. -/
def Rearranged (s t : Store) (i j : Item) : Prop :=
  ∃ R, (∀ i j, R i j → s.Matches t R i j) ∧ R i j

/-- Such items match, with such parts. -/
theorem Rearranged.matches (h : s.Rearranged t i j) : s.Matches t (s.Rearranged t) i j := by
  obtain ⟨R, hR, hij⟩ := h
  exact (hR i j hij).mono fun _ _ h => ⟨R, hR, h⟩

/-- Items are such when they are related by a relation that leads to itself or to
items that are such. -/
theorem rearranged_of (hR : ∀ i j, R i j → s.Matches t (fun i j => R i j ∨ s.Rearranged t i j) i j)
    (h : R i j) : s.Rearranged t i j := by
  refine ⟨fun i j => R i j ∨ s.Rearranged t i j, fun i j hij => ?_, .inl h⟩
  rcases hij with hij | hij
  · exact hR i j hij
  · exact hij.matches.mono fun _ _ h => .inr h

namespace Rearranged

theorem symm (h : s.Rearranged t i j) : t.Rearranged s j i := by
  obtain ⟨R, hR, hij⟩ := h
  refine ⟨fun j i => R i j, fun j i hij => ?_, hij⟩
  cases hR i j hij with
  | scalar x => exact .scalar x
  | object hc hd hcells => exact .object hd hc hcells.symm

/-- Stores may grow. -/
theorem mono (h : s.Rearranged t i j) (hs : s.GrowsTo s') (ht : t.GrowsTo t') :
    s'.Rearranged t' i j := by
  obtain ⟨R, hR, hij⟩ := h
  refine ⟨R, fun i j hij => ?_, hij⟩
  cases hR i j hij with
  | scalar x => exact .scalar x
  | object hc hd hcells => exact .object (hs _ _ hc) (ht _ _ hd) hcells

/-- What is in a store is the same in two stores that it grows to. -/
theorem of_holds (hu : u.Sound) (hi : u.Holds i) (hs : u.GrowsTo s) (ht : u.GrowsTo t) :
    s.Rearranged t i i := by
  refine ⟨fun i j => i = j ∧ u.Holds i, ?_, rfl, hi⟩
  rintro i _ ⟨rfl, hi⟩
  cases i with
  | scalar x => exact .scalar x
  | object a =>
    obtain ⟨c, hc⟩ := exists_cell? hi
    refine .object (hs a c hc) (ht a c hc) (Cell.rearranged_of_items fun j hj => ⟨rfl, ?_⟩)
    exact (hu a c hc).holds j hj

theorem scalar_right {x : Scalar} (h : s.Rearranged t i (.scalar x)) : i = .scalar x := by
  cases h.matches
  rfl

theorem isNull_eq (h : s.Rearranged t i j) : i.isNull = j.isNull := by
  cases h.matches <;> rfl

end Rearranged

/-! ### Entries -/

/-- Entries are the same but for their order and the order of keys in them. -/
structure AlikeEntries (s t : Store) (entries others : List (Value × Item)) : Prop where
  left : ∀ e ∈ entries, ∃ f ∈ others, e.1 = f.1 ∧ s.Rearranged t e.2 f.2
  right : ∀ f ∈ others, ∃ e ∈ entries, e.1 = f.1 ∧ s.Rearranged t e.2 f.2

theorem AlikeEntries.symm {entries others : List (Value × Item)}
    (h : s.AlikeEntries t entries others) : t.AlikeEntries s others entries := by
  refine ⟨fun f hf => ?_, fun e he => ?_⟩
  · obtain ⟨e, he, hkey, halike⟩ := h.right f hf
    exact ⟨e, he, hkey.symm, halike.symm⟩
  · obtain ⟨f, hf, hkey, halike⟩ := h.left e he
    exact ⟨f, hf, hkey.symm, halike.symm⟩

theorem AlikeEntries.mono {entries others : List (Value × Item)}
    (h : s.AlikeEntries t entries others) (hs : s.GrowsTo s') (ht : t.GrowsTo t') :
    s'.AlikeEntries t' entries others := by
  refine ⟨fun e he => ?_, fun f hf => ?_⟩
  · obtain ⟨f, hf, hkey, halike⟩ := h.left e he
    exact ⟨f, hf, hkey, halike.mono hs ht⟩
  · obtain ⟨e, he, hkey, halike⟩ := h.right f hf
    exact ⟨e, he, hkey, halike.mono hs ht⟩

/-- Both items are mappings with entries alike, or neither is a mapping. -/
theorem Rearranged.entries? (h : s.Rearranged t i j) :
    (s.entries? i = none ∧ t.entries? j = none) ∨ ∃ entries others,
      s.entries? i = some entries ∧ t.entries? j = some others ∧
        s.AlikeEntries t entries others := by
  cases h.matches with
  | scalar x => exact .inl ⟨rfl, rfl⟩
  | @object a b c d hc hd hcells =>
    have hnone {x : Store} {a : Nat} {c : Cell} (hc : x.cell? a = some c)
        (hkind : ∀ entries, c ≠ .mapping entries) : x.entries? (.object a) = none := by
      refine Option.eq_none_iff_forall_ne_some.mpr fun entries hentries => ?_
      obtain ⟨_, ha, hcell⟩ := entries?_eq_some_iff.mp hentries
      cases ha
      exact hkind entries (Option.some.inj (hc.symm.trans hcell))
    cases hcells with
    | mapping hleft hright =>
      exact .inr ⟨_, _, entries?_eq_some_iff.mpr ⟨a, rfl, hc⟩,
        entries?_eq_some_iff.mpr ⟨b, rfl, hd⟩,
        hleft, hright⟩
    | _ => exact .inl ⟨hnone hc nofun, hnone hd nofun⟩

theorem Rearranged.exists_entries {entries : List (Value × Item)} (h : s.Rearranged t i j)
    (hi : s.entries? i = some entries) :
    ∃ others, t.entries? j = some others ∧ s.AlikeEntries t entries others := by
  rcases h.entries? with ⟨hnone, -⟩ | ⟨_, others, hsome, hj, halike⟩
  · rw [hi] at hnone
    cases hnone
  · cases hi.symm.trans hsome
    exact ⟨others, hj, halike⟩

/-- Mappings with entries alike are the same but for the order of keys. -/
theorem AlikeEntries.rearranged {entries others : List (Value × Item)}
    (h : s.AlikeEntries t entries others) (hi : s.entries? i = some entries)
    (hj : t.entries? j = some others) : s.Rearranged t i j := by
  obtain ⟨a, rfl, hc⟩ := entries?_eq_some_iff.mp hi
  obtain ⟨b, rfl, hd⟩ := entries?_eq_some_iff.mp hj
  refine rearranged_of (R := fun i j => i = .object a ∧ j = .object b) ?_ ⟨rfl, rfl⟩
  rintro _ _ ⟨rfl, rfl⟩
  exact .object hc hd ((Cell.Rearranged.mapping h.left h.right).mono fun _ _ h => .inr h)

/-- Two optional items are both missing, or the same but for the order of keys. -/
abbrev SameOption (s t : Store) : Option Item → Option Item → Prop := Option.Rel (s.Rearranged t)

theorem SameOption.mono {x y : Option Item} (h : s.SameOption t x y) (hs : s.GrowsTo s')
    (ht : t.GrowsTo t') : s'.SameOption t' x y := by
  cases h with
  | none => exact .none
  | some halike => exact .some (halike.mono hs ht)

theorem exists_of_sameOption {x y : Option Item} (h : s.SameOption t x y) (hx : x = some i) :
    ∃ j, y = some j ∧ s.Rearranged t i j := by
  subst hx
  cases h with
  | some halike => exact ⟨_, rfl, halike⟩

theorem eq_none_of_sameOption {x y : Option Item} (h : s.SameOption t x y) (hx : x = none) :
    y = none := by
  subst hx
  cases h
  rfl

/-- Entries alike have the same under a text. -/
theorem AlikeEntries.find? {entries others : List (Value × Item)}
    (h : s.AlikeEntries t entries others) (hentries : Entries.DistinctKeys entries)
    (hothers : Entries.DistinctKeys others) (key : String) :
    s.SameOption t (Entries.find? (.text key) entries) (Entries.find? (.text key) others) := by
  cases hi : Entries.find? (.text key) entries with
  | some i =>
    obtain ⟨k, hk, hsame⟩ := Entries.mem_of_find? hi
    rw [sameKey_text_iff] at hsame
    subst hsame
    obtain ⟨⟨k, j⟩, hf, hkey, halike⟩ := h.left _ hk
    cases hkey
    rw [hothers.find?_of_mem hf]
    exact .some halike
  | none =>
    cases hj : Entries.find? (.text key) others with
    | none => exact .none
    | some j =>
      obtain ⟨k, hk, hsame⟩ := Entries.mem_of_find? hj
      rw [sameKey_text_iff] at hsame
      subst hsame
      obtain ⟨⟨k, i⟩, he, hkey, -⟩ := h.right _ hk
      cases hkey
      rw [hentries.find?_of_mem he] at hi
      cases hi

/-- **The same is found under every path.** -/
theorem Rearranged.find? (h : s.Rearranged t i j) (hs : s.Sound) (ht : t.Sound)
    (path : List String) : s.SameOption t (s.find? i path) (t.find? j path) := by
  induction path generalizing i j with
  | nil => exact .some h
  | cons key rest ih =>
    rw [find?_cons, find?_cons]
    rcases h.entries? with ⟨hi, hj⟩ | ⟨entries, others, hi, hj, halike⟩
    · rw [hi, hj]
      exact .none
    · rw [hi, hj, Option.bind_some, Option.bind_some]
      have hkey := halike.find? ((hs.fits_entries hi).distinct _ rfl)
        ((ht.fits_entries hj).distinct _ rfl) key
      generalize Entries.find? (.text key) entries = x at hkey
      generalize Entries.find? (.text key) others = y at hkey
      cases hkey with
      | none => exact .none
      | some hxy => exact ih hxy

end Store

end Winnow
