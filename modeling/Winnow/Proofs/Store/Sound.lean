/-
Winnow/Proofs/Store/Sound.lean

Stores in which nothing dangles.

A store is sound when every address in a cell is that of a cell and no key of a
mapping comes twice (`Sound`).  Both hold of objects in memory without further
ado; here they are the invariant of all operations on stores.

An operation that only adds cells leaves all there was as it was (`GrowsTo`).
What is read from an item then stays the same: its entries
(`GrowsTo.entries?_eq`), and what is found under a path (`GrowsTo.find?_eq`).
-/
import Winnow.Proofs.Store.Entries
import Winnow.Store.Element
import Winnow.Store.Section

namespace Winnow

namespace Store

open Entries (DistinctKeys)

variable {s t u : Store} {i j : Item} {c : Cell} {a : Nat}

/-! ### Addresses and cells -/

/-- An item is a scalar, or its address is that of a cell. -/
def Holds (s : Store) : Item → Prop
  | .scalar _ => True
  | .object a => a < s.size

/-- The items in a cell are held, and no key in it comes twice. -/
structure Fits (s : Store) (c : Cell) : Prop where
  holds : ∀ i ∈ c.items, s.Holds i
  distinct : ∀ entries, c = .mapping entries → DistinctKeys entries

/-- Every cell fits into the store. -/
def Sound (s : Store) : Prop := ∀ a c, s.cell? a = some c → s.Fits c

theorem lt_size_of_cell? (h : s.cell? a = some c) : a < s.size :=
  (Array.getElem?_eq_some_iff.mp h).1

theorem exists_cell? (h : a < s.size) : ∃ c, s.cell? a = some c :=
  ⟨s.cells[a], Array.getElem?_eq_getElem h⟩

theorem entries?_eq_some_iff {entries : List (Value × Item)} :
    s.entries? i = some entries ↔ ∃ a, i = .object a ∧ s.cell? a = some (.mapping entries) := by
  constructor
  · intro h
    unfold entries? at h
    split at h
    · rename_i hcell
      injection h with h
      subst h
      cases i with
      | scalar x => cases hcell
      | object a => exact ⟨a, rfl, hcell⟩
    · cases h
  · rintro ⟨a, rfl, hcell⟩
    unfold entries?
    rw [Item.address?, Option.bind_some, hcell]

theorem fits_mapping {entries : List (Value × Item)} :
    s.Fits (.mapping entries) ↔ (∀ e ∈ entries, s.Holds e.2) ∧ DistinctKeys entries := by
  constructor
  · intro h
    exact ⟨fun e he => h.holds e.2 (List.mem_map_of_mem he), h.distinct entries rfl⟩
  · rintro ⟨hholds, hdistinct⟩
    refine ⟨fun i hi => ?_, fun other h => by cases h; exact hdistinct⟩
    obtain ⟨e, he, rfl⟩ := List.mem_map.mp hi
    exact hholds e he

theorem fits_mapping_nil : s.Fits (.mapping []) :=
  fits_mapping.mpr ⟨nofun, Entries.distinctKeys_nil⟩

theorem Sound.fits_entries (hs : s.Sound) {entries : List (Value × Item)}
    (h : s.entries? i = some entries) : s.Fits (.mapping entries) := by
  obtain ⟨a, -, hcell⟩ := entries?_eq_some_iff.mp h
  exact hs a _ hcell

theorem Fits.holds_of_find? {entries : List (Value × Item)} (h : s.Fits (.mapping entries))
    {key : Value} (hfind : Entries.find? key entries = some j) : s.Holds j := by
  obtain ⟨k, hk, -⟩ := Entries.mem_of_find? hfind
  exact (fits_mapping.mp h).1 (k, j) hk

theorem Fits.insert {entries : List (Value × Item)} (h : s.Fits (.mapping entries))
    (key : Value) (hj : s.Holds j) : s.Fits (.mapping (Entries.insert key j entries)) := by
  obtain ⟨hholds, hdistinct⟩ := fits_mapping.mp h
  refine fits_mapping.mpr ⟨fun e he => ?_, hdistinct.insert key j⟩
  rcases Entries.mem_insert he with he | he
  · rw [he]
    exact hj
  · exact hholds e he

/-! ### Paths -/

theorem find?_cons (key : String) (rest : List String) :
    s.find? i (key :: rest)
      = ((s.entries? i).bind (Entries.find? (.text key))).bind fun next => s.find? next rest := by
  rw [find?]
  cases (s.entries? i).bind (Entries.find? (.text key)) <;> rfl

theorem Sound.holds_of_find? (hs : s.Sound) {path : List String} (hi : s.Holds i)
    (h : s.find? i path = some j) : s.Holds j := by
  induction path generalizing i with
  | nil =>
    injection h with h
    exact h ▸ hi
  | cons key rest ih =>
    rw [find?_cons] at h
    obtain ⟨next, hnext, h⟩ := Option.bind_eq_some_iff.mp h
    obtain ⟨entries, hentries, hfind⟩ := Option.bind_eq_some_iff.mp hnext
    exact ih ((hs.fits_entries hentries).holds_of_find? hfind) h

theorem find?_append (before after : List String) :
    s.find? i (before ++ after) = (s.find? i before).bind fun j => s.find? j after := by
  induction before generalizing i with
  | nil => rfl
  | cons key rest ih =>
    rw [List.cons_append, find?_cons, find?_cons]
    cases (s.entries? i).bind (Entries.find? (.text key)) with
    | none => rfl
    | some next => exact ih

theorem find?_append_key {inner : List (Value × Item)} {path : List String} {j : Item}
    (h : s.find? i path = some j) (hj : s.entries? j = some inner) (key : String) :
    s.find? i (path ++ [key]) = Entries.find? (.text key) inner := by
  rw [find?_append, h, Option.bind_some, find?_cons, hj, Option.bind_some]
  cases Entries.find? (.text key) inner <;> rfl

/-! ### Growing stores -/

/-- Every cell of a store is the same in another. -/
def GrowsTo (s t : Store) : Prop := ∀ a c, s.cell? a = some c → t.cell? a = some c

theorem GrowsTo.refl (s : Store) : s.GrowsTo s := fun _ _ h => h

theorem GrowsTo.trans (h : s.GrowsTo t) (k : t.GrowsTo u) : s.GrowsTo u :=
  fun a c hc => k a c (h a c hc)

theorem GrowsTo.size_le (h : s.GrowsTo t) : s.size ≤ t.size := by
  refine Nat.le_of_not_lt fun hlt => ?_
  obtain ⟨c, hc⟩ := exists_cell? hlt
  exact absurd (lt_size_of_cell? (h t.size c hc)) (Nat.lt_irrefl _)

theorem Holds.mono (h : s.size ≤ t.size) (hi : s.Holds i) : t.Holds i := by
  cases i with
  | scalar x => trivial
  | object a => exact Nat.lt_of_lt_of_le hi h

theorem Fits.mono (h : s.size ≤ t.size) (hc : s.Fits c) : t.Fits c :=
  ⟨fun i hi => (hc.holds i hi).mono h, hc.distinct⟩

theorem GrowsTo.cell?_eq (h : s.GrowsTo t) (ha : a < s.size) : t.cell? a = s.cell? a := by
  obtain ⟨c, hc⟩ := exists_cell? ha
  rw [hc, h a c hc]

theorem GrowsTo.entries?_eq (h : s.GrowsTo t) (hi : s.Holds i) :
    t.entries? i = s.entries? i := by
  cases i with
  | scalar x => rfl
  | object a =>
    unfold Store.entries?
    rw [Item.address?, Option.bind_some, Option.bind_some, h.cell?_eq hi]

/-- An item with entries is an object that the store holds. -/
theorem holds_of_entries? {entries : List (Value × Item)} (h : s.entries? i = some entries) :
    s.Holds i := by
  obtain ⟨a, rfl, hcell⟩ := entries?_eq_some_iff.mp h
  exact lt_size_of_cell? hcell

theorem GrowsTo.entries?_of_eq_some (h : s.GrowsTo t) {entries : List (Value × Item)}
    (hi : s.entries? i = some entries) : t.entries? i = some entries :=
  (h.entries?_eq (holds_of_entries? hi)).trans hi

theorem GrowsTo.find?_eq (h : s.GrowsTo t) (hs : s.Sound) (hi : s.Holds i)
    (path : List String) : t.find? i path = s.find? i path := by
  induction path generalizing i with
  | nil => rfl
  | cons key rest ih =>
    rw [find?_cons, find?_cons, h.entries?_eq hi]
    cases hnext : (s.entries? i).bind (Entries.find? (.text key)) with
    | none => rfl
    | some next =>
      obtain ⟨entries, hentries, hfind⟩ := Option.bind_eq_some_iff.mp hnext
      exact ih ((hs.fits_entries hentries).holds_of_find? hfind)

/-! ### Paths through entries -/

/-- The item under a path that begins at entries. -/
def look (s : Store) (entries : List (Value × Item)) : List String → Option Item
  | [] => none
  | key :: rest => (Entries.find? (.text key) entries).bind fun i => s.find? i rest

/-- Entries say nothing about a path: they have mappings on the way, up to one
in which the next key is missing. -/
def Silent (s : Store) : List (Value × Item) → List String → Prop
  | _, [] => False
  | entries, key :: rest => ∀ i, Entries.find? (.text key) entries = some i →
    ∃ inner, s.entries? i = some inner ∧ s.Silent inner rest

theorem find?_eq_look {path : List String} (h : path ≠ []) :
    s.find? i path = (s.entries? i).bind fun entries => s.look entries path := by
  cases path with
  | nil => exact absurd rfl h
  | cons key rest =>
    rw [find?_cons]
    cases s.entries? i <;> rfl

theorem Fits.holds_of_look (hs : s.Sound) {entries : List (Value × Item)}
    (hentries : s.Fits (.mapping entries)) {path : List String}
    (h : s.look entries path = some j) : s.Holds j := by
  cases path with
  | nil => cases h
  | cons key rest =>
    rw [look] at h
    obtain ⟨i, hi, h⟩ := Option.bind_eq_some_iff.mp h
    exact hs.holds_of_find? (hentries.holds_of_find? hi) h

theorem look_eq_none_of_silent {entries : List (Value × Item)} {path : List String}
    (h : s.Silent entries path) : s.look entries path = none := by
  induction path generalizing entries with
  | nil => rfl
  | cons key rest ih =>
    rw [look]
    cases hi : Entries.find? (.text key) entries with
    | none => rfl
    | some i =>
      obtain ⟨inner, hinner, hsilent⟩ := h i hi
      have hrest : rest ≠ [] := by
        rintro rfl
        exact hsilent
      rw [Option.bind_some, find?_eq_look hrest, hinner]
      exact ih hsilent

/-- What says nothing about a path says nothing about what lies behind it. -/
theorem Silent.append {path : List String} {entries : List (Value × Item)}
    (h : s.Silent entries path) (after : List String) :
    s.Silent entries (path ++ after) := by
  induction path generalizing entries with
  | nil => exact absurd h id
  | cons key rest ih =>
    intro i hi
    obtain ⟨inner, hinner, hsilent⟩ := h i hi
    exact ⟨inner, hinner, ih hsilent⟩

/-- Entries are silent about a path when they have mappings under its beginnings,
as far as they have anything, and nothing under the path itself. -/
theorem silent_iff {entries : List (Value × Item)} (hi : s.entries? i = some entries)
    {path : List String} (hpath : path ≠ []) :
    s.Silent entries path ↔ ∀ before w, before <+: path → s.find? i before = some w →
      before ≠ path ∧ (s.entries? w).isSome = true := by
  induction path generalizing i entries with
  | nil => exact absurd rfl hpath
  | cons key rest ih =>
    constructor
    · intro hsilent before w hprefix hfind
      cases before with
      | nil =>
        cases hfind
        exact ⟨nofun, by rw [hi]; rfl⟩
      | cons k tail =>
        obtain ⟨rfl, htail⟩ := List.cons_prefix_cons.mp hprefix
        rw [find?_cons, hi, Option.bind_some] at hfind
        obtain ⟨next, hnext, hfind⟩ := Option.bind_eq_some_iff.mp hfind
        obtain ⟨inner, hinner, hrest⟩ := hsilent next hnext
        have hne : rest ≠ [] := by
          rintro rfl
          exact hrest
        obtain ⟨htailNe, hsome⟩ := (ih hinner hne).mp hrest tail w htail hfind
        exact ⟨fun heq => htailNe (List.cons.inj heq).2, hsome⟩
    · intro hall next hnext
      have hfind (before : List String) :
          s.find? i (key :: before) = s.find? next before := by
        rw [find?_cons, hi, Option.bind_some, hnext, Option.bind_some]
      -- the key alone is a beginning of the path, so a mapping is under it
      have hfirst : [key] <+: key :: rest := List.cons_prefix_cons.mpr ⟨rfl, List.nil_prefix⟩
      obtain ⟨hne, hsome⟩ := hall [key] next hfirst (hfind [])
      obtain ⟨inner, hinner⟩ := Option.isSome_iff_exists.mp hsome
      have hrest : rest ≠ [] := fun heq => hne (by rw [heq])
      refine ⟨inner, hinner, (ih hinner hrest).mpr fun before w hprefix hw => ?_⟩
      obtain ⟨hbefore, hentries⟩ :=
        hall (key :: before) w (List.cons_prefix_cons.mpr ⟨rfl, hprefix⟩) ((hfind before).trans hw)
      exact ⟨fun heq => hbefore (by rw [heq]), hentries⟩

theorem GrowsTo.look_eq (h : s.GrowsTo t) (hs : s.Sound) {entries : List (Value × Item)}
    (hentries : s.Fits (.mapping entries)) (path : List String) :
    t.look entries path = s.look entries path := by
  cases path with
  | nil => rfl
  | cons key rest =>
    rw [look, look]
    cases hi : Entries.find? (.text key) entries with
    | none => rfl
    | some i => exact h.find?_eq hs (hentries.holds_of_find? hi) rest

theorem GrowsTo.silent_iff (h : s.GrowsTo t) (hs : s.Sound) {entries : List (Value × Item)}
    (hentries : s.Fits (.mapping entries)) (path : List String) :
    t.Silent entries path ↔ s.Silent entries path := by
  induction path generalizing entries with
  | nil => exact Iff.rfl
  | cons key rest ih =>
    refine forall_congr' fun i => forall_congr' fun hi => ?_
    rw [h.entries?_eq (hentries.holds_of_find? hi)]
    refine exists_congr fun inner => and_congr_right fun hinner => ?_
    exact ih (hs.fits_entries hinner)

/-! ### Adding and changing cells -/

theorem size_add : (s.add c).2.size = s.size + 1 := Array.size_push _

theorem size_put : (s.put a c).size = s.size := Array.size_setIfInBounds

theorem cell?_add_self : (s.add c).2.cell? s.size = some c := Array.getElem?_push_size

theorem growsTo_add (s : Store) (c : Cell) : s.GrowsTo (s.add c).2 := by
  intro a d hd
  have ha := lt_size_of_cell? hd
  have hne : a ≠ s.cells.size := Nat.ne_of_lt ha
  show (s.cells.push c)[a]? = some d
  rw [Array.getElem?_push, if_neg hne]
  exact hd

theorem holds_add : (s.add c).2.Holds (s.add c).1 := by
  show s.size < (s.add c).2.size
  rw [size_add]
  exact Nat.lt_succ_self _

theorem entries?_add {entries : List (Value × Item)} :
    (s.add (.mapping entries)).2.entries? (s.add (.mapping entries)).1 = some entries :=
  entries?_eq_some_iff.mpr ⟨s.size, rfl, cell?_add_self⟩

theorem Sound.add (hs : s.Sound) (hc : s.Fits c) : (s.add c).2.Sound := by
  intro a d hd
  have hle : s.size ≤ (s.add c).2.size := (growsTo_add s c).size_le
  by_cases ha : a < s.size
  · rw [(growsTo_add s c).cell?_eq ha] at hd
    exact (hs a d hd).mono hle
  · have hlast : a = s.size := by
      have hlt := lt_size_of_cell? hd
      rw [size_add] at hlt
      omega
    rw [hlast, cell?_add_self] at hd
    injection hd with hd
    exact hd ▸ hc.mono hle

theorem Sound.put (hs : s.Sound) (hc : s.Fits c) : (s.put a c).Sound := by
  intro b d hd
  have hle : s.size ≤ (s.put a c).size := Nat.le_of_eq size_put.symm
  by_cases hab : a = b
  · have hd' : (s.cells.setIfInBounds a c)[b]? = some d := hd
    rw [← hab, Array.getElem?_setIfInBounds_self] at hd'
    split at hd'
    · injection hd' with hd'
      exact hd' ▸ hc.mono hle
    · cases hd'
  · have hd' : (s.cells.setIfInBounds a c)[b]? = some d := hd
    rw [Array.getElem?_setIfInBounds_ne hab] at hd'
    exact (hs b d hd').mono hle

end Store

end Winnow
