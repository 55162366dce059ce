/-
Winnow/Proofs/Catalogue/Sections.lean

The filters in settings, where several layers have a section of filters.

Looking up the section answers the one of the highest layer that has any, and
this section alone is read (`loadFrom_of_sections`).  The merged settings have
its entries too, and those of the layers below: an entry of the highest section
is among the merged ones as it is, unless it is a mapping and is laid over a
mapping of a lower layer (`exists_merged_entry`).  So the filters that only lower
layers define are in the merged settings but are not built
(`not_loadFrom_of_merged`).
-/
import Winnow.Proofs.Catalogue.Loading
import Winnow.Proofs.Settings.Sections

namespace Winnow

open Shaped (shape)

/-! ### Stored values in stores that grow -/

/-- The same item, in a store that has grown. -/
structure Stored.Outgrown (x y : Stored) : Prop where
  sound : x.store.Sound
  holds : x.store.Holds x.item
  grows : x.store.GrowsTo y.store
  item : y.item = x.item

/-- Growing stores keep what is seen of a value. -/
theorem Stored.keepsShapes_outgrown : KeepsShapes Stored.Outgrown := by
  rintro ⟨s, i⟩ ⟨t, j⟩ ⟨hs, hi, hgrows, hitem⟩
  dsimp only at hs hi hgrows hitem
  subst hitem
  show Shape.Alike _ (Stored.shape ⟨s, j⟩) (Stored.shape ⟨t, j⟩)
  cases j with
  | scalar x => exact .scalar x
  | object a =>
    obtain ⟨c, hc⟩ := Store.exists_cell? hi
    have hparts (p : Item) (hp : p ∈ c.items) : Outgrown ⟨s, p⟩ ⟨t, p⟩ :=
      ⟨hs, (hs a c hc).holds p hp, hgrows, rfl⟩
    have hrow (items : List Item) (hitems : ∀ p ∈ items, p ∈ c.items) :
        List.Forall₂ Outgrown (items.map (other ⟨s, .object a⟩))
          (items.map (other ⟨t, .object a⟩)) := by
      rw [List.forall₂_map_left_iff, List.forall₂_map_right_iff, List.forall₂_same]
      exact fun p hp => hparts p (hitems p hp)
    unfold Stored.shape
    simp only [hc, hgrows a c hc]
    cases c with
    | list items => exact .list (hrow items fun _ hp => hp)
    | tuple items => exact .tuple (hrow items fun _ hp => hp)
    | set members => exact .set members
    | mapping entries =>
      refine .mapping ?_
      rw [List.forall₂_map_left_iff, List.forall₂_map_right_iff, List.forall₂_same]
      exact fun e he => ⟨rfl, hparts e.2 (List.mem_map_of_mem he)⟩

/-! ### Loading the filters of settings -/

namespace Stored

/-- Entries of a mapping in a store, as values. -/
def entriesIn (s : Store) (entries : List (Value × Item)) : List (Value × Stored) :=
  entries.map fun e => (e.1, ⟨s, e.2⟩)

theorem shape_eq_mapping_iff {s : Store} {i : Item} {seen : List (Value × Stored)} :
    shape (⟨s, i⟩ : Stored) = .mapping seen ↔
      ∃ entries, s.entries? i = some entries ∧ seen = entriesIn s entries := by
  constructor
  · intro h
    cases i with
    | scalar x => cases h
    | object a =>
      have h : Stored.shape ⟨s, .object a⟩ = .mapping seen := h
      unfold Stored.shape at h
      dsimp only at h
      split at h <;> cases h
      exact ⟨_, Store.entries?_eq_some_iff.mpr ⟨a, rfl, ‹_›⟩, rfl⟩
  · rintro ⟨entries, hentries, rfl⟩
    obtain ⟨a, rfl, hcell⟩ := Store.entries?_eq_some_iff.mp hentries
    show Stored.shape ⟨s, .object a⟩ = _
    unfold Stored.shape
    simp only [hcell]
    rfl

end Stored

namespace Registry

variable {r r' : Registry} {n : Nat} {path : List String} {source : Source} {x : Stored}

/-- What the layer of a source has under a path, as a value. -/
def storedAt? (r : Registry) (n : Nat) (path : List String) (source : Source) : Option Stored :=
  ((r.layers n).itemAt? r.store path source).map (Stored.mk r.store)

/-- What the merged settings have under a path, as a value. -/
def mergedStoredAt? [Stack] (r : Registry) (n : Nat) (path : List String) : Option Stored :=
  match r.merged n with
  | (.ok all, r') => (r'.store.find? all path).map (Stored.mk r'.store)
  | (.error _, _) => none

/-- The layer of a source has a mapping under a path. -/
def HasMappingAt (r : Registry) (n : Nat) (path : List String) (source : Source) : Prop :=
  (r.layers n).MappingAt r.store path source

theorem storedAt?_eq_some_iff : r.storedAt? n path source = some x ↔
    ∃ i, (r.layers n).itemAt? r.store path source = some i ∧ x = ⟨r.store, i⟩ := by
  unfold storedAt?
  rw [Option.map_eq_some_iff]
  exact exists_congr fun i => and_congr_right fun _ => eq_comm

theorem mergedStoredAt?_eq_some_iff [Stack] : r.mergedStoredAt? n path = some x ↔
    ∃ all t w, (r.layers n).merged r.store = (.ok all, t) ∧ t.find? all path = some w ∧
      x = ⟨t, w⟩ := by
  unfold mergedStoredAt?
  split
  · rename_i all r' hmerged
    obtain ⟨t, ht, rfl⟩ := merged_eq_ok_iff.mp hmerged
    rw [Option.map_eq_some_iff]
    constructor
    · rintro ⟨w, hw, rfl⟩
      exact ⟨all, t, w, ht, hw, rfl⟩
    · rintro ⟨all', t', w, ht', hw, rfl⟩
      cases ht.symm.trans ht'
      exact ⟨w, hw, rfl⟩
  · rename_i fault r' hmerged
    refine iff_of_false nofun ?_
    rintro ⟨all, t, w, ht, -⟩
    cases hmerged.symm.trans (merged_eq_ok_iff.mpr ⟨t, ht, rfl⟩)

end Registry

/-- A catalogue in a store is a mapping, and so it is not no value. -/
theorem exists_entries_of_isCatalogue {s : Store} {i : Item} (h : IsCatalogue (⟨s, i⟩ : Stored)) :
    ∃ entries, s.entries? i = some entries ∧ i.isNull = false ∧
      ∃ c, List.Forall₂ Catalogue.Defines (Stored.entriesIn s entries) c := by
  obtain ⟨seen, hseen, hall⟩ := h
  obtain ⟨entries, hentries, rfl⟩ := Stored.shape_eq_mapping_iff.mp hseen
  obtain ⟨a, rfl, -⟩ := Store.entries?_eq_some_iff.mp hentries
  exact ⟨entries, hentries, rfl, Catalogue.exists_forall₂_defines hall⟩

namespace Catalogue

variable {r : Registry} {n : Nat} {whole : Stored}

theorem definitionsIn_of_find? {source : Source} {i : Item}
    (h : r.find? n Setting.filters = some (source, i)) : definitionsIn r n = ⟨r.store, i⟩ := by
  rw [definitionsIn, Registry.getStored, h]

/-- The highest layer that has a section of filters is the one that is found. -/
theorem exists_highest_section
    (hsections : ∀ source x, r.storedAt? n Setting.filters source = some x → IsCatalogue x)
    {source : Source} (hsome : r.HasMappingAt n Setting.filters source) :
    ∃ source i, r.find? n Setting.filters = some (source, i) ∧
      (r.layers n).itemAt? r.store Setting.filters source = some i ∧
      ∀ higher, source.rank < higher.rank →
        (r.layers n).itemAt? r.store Setting.filters higher = none := by
  -- nothing in the layers is no value, so the search stops at whatever a layer has
  have hat (x : Source) (i : Item) (hi : (r.layers n).itemAt? r.store Setting.filters x = some i) :
      (r.layers n).at? r.store Setting.filters x = some i := by
    have hcatalogue := hsections x _ (Registry.storedAt?_eq_some_iff.mpr ⟨i, hi, rfl⟩)
    obtain ⟨-, -, hnull, -⟩ := exists_entries_of_isCatalogue hcatalogue
    exact Layers.at?_eq_some_iff.mpr ⟨hi, hnull⟩
  obtain ⟨j, -, hj, -⟩ := hsome
  obtain ⟨⟨top, i⟩, hfind⟩ : ∃ found, r.find? n Setting.filters = some found := by
    refine Option.isSome_iff_exists.mp (List.findSome?_isSome_iff.mpr ⟨source, ?_, ?_⟩)
    · cases source <;> decide
    · rw [hat source j hj]
      rfl
  obtain ⟨htop, habove⟩ := Layers.find?_eq_some_iff.mp hfind
  refine ⟨top, i, hfind, (Layers.at?_eq_some_iff.mp htop).1, fun higher hrank => ?_⟩
  refine Option.eq_none_iff_forall_ne_some.mpr fun w hw => ?_
  cases (hat higher w hw).symm.trans (habove higher hrank)

/-- A filter of the highest section is also that of the merged section, or two
mappings are merged there. -/
theorem exists_merged_entry [Stack] {s t : Store} {l : Layers} {path : List String}
    {source : Source}
    {i all w : Item} {own whole : List (Value × Item)} (hs : s.Sound) (hl : l.Held s)
    (h : l.merged s = (.ok all, t)) (hpath : path ≠ [])
    (hitem : l.itemAt? s path source = some i) (hown : s.entries? i = some own)
    (habove : ∀ higher, source.rank < higher.rank → l.itemAt? s path higher = none)
    (hw : t.find? all path = some w) (hwhole : t.entries? w = some whole) {f : String × Chain}
    {e : Value × Stored} (he : e ∈ Stored.entriesIn s own) (hdefines : Defines e f) :
    ∃ e ∈ Stored.entriesIn t whole, e.1 = .text f.1 ∧ (Defines e f ∨
      l.MappingAt s (path ++ [f.1]) source ∧
        ∃ lower, lower.rank < source.rank ∧ l.MappingAt s (path ++ [f.1]) lower) := by
  obtain ⟨⟨key, v⟩, hmem, rfl⟩ := List.mem_map.mp he
  have hkey : key = .text f.1 := hdefines.key_eq
  subst hkey
  have hfits := hs.fits_entries hown
  have hv := (hfits.distinct own rfl).find?_of_mem hmem
  -- an entry that is found under the name has the name for its key
  have hentry (u : Item) (hu : Entries.find? (.text f.1) whole = some u) :
      (.text f.1, ⟨t, u⟩) ∈ Stored.entriesIn t whole := by
    obtain ⟨k, hk, hsame⟩ := Entries.mem_of_find? hu
    rw [sameKey_text_iff.mp hsame] at hk
    exact List.mem_map_of_mem hk
  rcases Layers.merged_section hs hl h hpath hitem hown habove hw hwhole hv with
    hsame | ⟨⟨fresh, hfresh⟩, hmeet⟩
  · have hgrown : Stored.Outgrown ⟨s, v⟩ ⟨t, v⟩ :=
      ⟨hs, hfits.holds_of_find? hv, (Layers.merged_sound hs h).1, rfl⟩
    exact ⟨_, hentry v hsame, rfl, .inl (hdefines.of_alike Stored.keepsShapes_outgrown hgrown)⟩
  · exact ⟨_, hentry fresh hfresh, rfl, .inr hmeet⟩

/-- **Loading filters from settings** builds exactly the entries of the highest
section.  Let what the layers have for sections of filters be mappings from names to
definitions, and let the merged section be one again.  Then there is exactly one
filter for each entry of the section of the highest layer that has one, in order,
and no other, unless an open block of context cannot be written into the messages.
Each of them is the filter that the merged section defines under its name, unless
the layer and a lower one both have a mapping under this name. -/
theorem loadFrom_of_sections [Stack] (hr : r.Reachable)
    (hsections : ∀ source x, r.storedAt? n Setting.filters source = some x → IsCatalogue x)
    (hmerged : r.mergedStoredAt? n Setting.filters = some whole) (hwhole : IsCatalogue whole) :
    ∃ source own ownEntries wholeEntries c,
      r.storedAt? n Setting.filters source = some own ∧
      (∀ higher, source.rank < higher.rank → r.storedAt? n Setting.filters higher = none) ∧
      shape own = .mapping ownEntries ∧ shape whole = .mapping wholeEntries ∧
      (∀ logger h, ∃ h', Yields h (loadFrom r n logger h) (.ok c, h')) ∧
      List.Forall₂ Defines ownEntries c ∧ (c.map (·.1)).Nodup ∧
      ∀ f ∈ c, ∃ e ∈ wholeEntries, e.1 = .text f.1 ∧
        (Defines e f ∨ r.HasMappingAt n (Setting.filters ++ [f.1]) source ∧
          ∃ lower, lower.rank < source.rank ∧
            r.HasMappingAt n (Setting.filters ++ [f.1]) lower) := by
  have hs := hr.sound.store
  have hl := hr.sound.layers n
  have hpath : Setting.filters ≠ [] := List.cons_ne_nil _ _
  obtain ⟨all, t, w, hlayers, hw, rfl⟩ := Registry.mergedStoredAt?_eq_some_iff.mp hmerged
  obtain ⟨wholeEntries, hwholeEntries, -⟩ := exists_entries_of_isCatalogue hwhole
  obtain ⟨_, hsome⟩ := Layers.exists_mappingAt_of_merged hs hl hlayers hpath hw hwholeEntries
  obtain ⟨source, i, hfind, hitem, habove⟩ := exists_highest_section hsections hsome
  have hown : r.storedAt? n Setting.filters source = some ⟨r.store, i⟩ :=
    Registry.storedAt?_eq_some_iff.mpr ⟨i, hitem, rfl⟩
  obtain ⟨own, hownEntries, -, c, hc⟩ := exists_entries_of_isCatalogue (hsections source _ hown)
  have hshape := Stored.shape_eq_mapping_iff.mpr ⟨own, hownEntries, rfl⟩
  refine ⟨source, _, _, _, c, hown, ?_, hshape,
    Stored.shape_eq_mapping_iff.mpr ⟨wholeEntries, hwholeEntries, rfl⟩, ?_, hc, ?_, ?_⟩
  · intro higher hrank
    rw [Registry.storedAt?, habove higher hrank]
    rfl
  · intro logger h
    rw [loadFrom, definitionsIn_of_find? hfind]
    exact load_of_forall₂ hshape hc logger h
  · have hdistinct := (hs.fits_entries hownEntries).distinct own rfl
    exact nodup_names hc (List.pairwise_map.mpr hdistinct)
  · intro f hf
    obtain ⟨e, he, hdefines⟩ := exists_mem_of_forall₂ hc.flip hf
    exact exists_merged_entry hs hl hlayers hpath hitem hownEntries habove hw hwholeEntries
      he hdefines

open scoped Stack in
/-- New settings in which a filter has been set for the source of files, and then
another one at run time. -/
def twoSections : Registry :=
  let (_, r) := Registry.empty.add .empty none none
  let (_, r) := r.set 0 (Setting.filters ++ ["dots"]) (.scalar (.text "hidden")) .file
  let (_, r) := r.set 0 (Setting.filters ++ ["plain"]) (.scalar (.text "non_hidden")) .runtime
  r

open scoped Stack in
theorem reachable_twoSections : twoSections.Reachable := by
  have hnew : Registry.Reachable (Registry.empty.add .empty none none).2 :=
    .add _ _ _ .empty
  have hfile := @Registry.Reachable.set _ _ 0 (Setting.filters ++ ["dots"])
    (.scalar (.text "hidden")) .file hnew trivial
  have hruntime := @Registry.Reachable.set _ _ 0 (Setting.filters ++ ["plain"])
    (.scalar (.text "non_hidden")) .runtime hfile trivial
  exact hruntime

theorem preset_isNamed {name : String} (hname : filterName (.text name) = .ok name) (s : Store)
    (p : Preset) : (∃ n, filterName (.text name) = .ok n) ∧
      ∃ d, IsDefinition (⟨s, .scalar (.text p.name)⟩ : Stored) d :=
  ⟨⟨name, hname⟩, .preset p, .preset rfl⟩

theorem isCatalogue_twoSections (source : Source) (x : Stored)
    (h : twoSections.storedAt? 0 Setting.filters source = some x) : IsCatalogue x := by
  cases source with
  | defaults =>
    cbv at h
    cases h
    exact ⟨[], rfl, List.forall_mem_nil _⟩
  | file =>
    cbv at h
    cases h
    exact ⟨_, rfl, List.forall_mem_singleton.mpr (preset_isNamed rfl _ .hidden)⟩
  | environment =>
    cbv at h
    cases h
  | runtime =>
    cbv at h
    cases h
    exact ⟨_, rfl, List.forall_mem_singleton.mpr (preset_isNamed rfl _ .nonHidden)⟩

open scoped Stack in
theorem mergedStoredAt?_twoSections : ∃ whole : Stored,
    twoSections.mergedStoredAt? 0 Setting.filters = some whole ∧ IsCatalogue whole ∧
      ∃ v w, shape whole = .mapping [(.text "dots", v), (.text "plain", w)] := by
  have hsome : (twoSections.mergedStoredAt? 0 Setting.filters).isSome = true := by cbv
  obtain ⟨whole, hwhole⟩ := Option.isSome_iff_exists.mp hsome
  have hthere := hwhole
  cbv at hthere
  cases hthere
  refine ⟨_, hwhole, ⟨_, rfl, ?_⟩, _, _, rfl⟩
  refine List.forall_mem_cons.mpr ⟨preset_isNamed rfl _ .hidden, ?_⟩
  exact List.forall_mem_singleton.mpr (preset_isNamed rfl _ .nonHidden)

open scoped Stack in
/-- Only the filter set at run time is built. -/
theorem loadFrom_of_sections_plain : ∃ c : Catalogue, c.map (·.1) = ["plain"] ∧
    ∀ logger h, ∃ h', Yields h (loadFrom twoSections 0 logger h) (.ok c, h') := by
  obtain ⟨whole, hmerged, hwhole, -⟩ := mergedStoredAt?_twoSections
  obtain ⟨source, own, ownEntries, -, c, hown, habove, hshape, -, hload, hc, -⟩ :=
    loadFrom_of_sections reachable_twoSections isCatalogue_twoSections hmerged hwhole
  refine ⟨c, ?_, hload⟩
  -- the highest section is the one of run time
  have hruntime : twoSections.storedAt? 0 Setting.filters .runtime ≠ none := by
    intro hnone
    cbv at hnone
    cases hnone
  have hsource : source = .runtime := by
    cases source with
    | runtime => rfl
    | _ => exact absurd (habove .runtime (by decide)) hruntime
  subst hsource
  cbv at hown
  cases hown
  cases hshape
  cases hc with
  | cons hfirst hrest =>
    cases hrest
    have hkey : Value.text "plain" = .text _ := hfirst.key_eq
    injection hkey with hkey
    injection hkey with hkey
    rw [List.map_cons, List.map_nil, ← hkey]

open scoped Stack in
/-- **Filters of lower layers are not built.**  The merged settings have the filter
that was set for the source of files, but loading does not give it. -/
theorem not_loadFrom_of_merged : ¬ ∀ (r : Registry) (n : Nat) (whole : Stored), r.Reachable →
    (∀ source x, r.storedAt? n Setting.filters source = some x → IsCatalogue x) →
    r.mergedStoredAt? n Setting.filters = some whole → IsCatalogue whole →
    ∀ logger h, h.BlocksAreWritable → ∃ entries c h', shape whole = .mapping entries ∧
      loadFrom r n logger h = (.ok c, h') ∧ List.Forall₂ Defines entries c := by
  intro hall
  obtain ⟨whole, hmerged, hwhole, v, w, hshape⟩ := mergedStoredAt?_twoSections
  have hblocks := Log.Hub.blocksAreWritable_of_eq_nil (h := .initial .empty) rfl
  obtain ⟨entries, c, h', hentries, hload, hc⟩ := hall twoSections 0 whole reachable_twoSections
    isCatalogue_twoSections hmerged hwhole none (.initial .empty) hblocks
  cases hshape.symm.trans hentries
  -- what is read is another section, with one entry
  obtain ⟨s, hsection⟩ : ∃ s, shape (definitionsIn twoSections 0)
      = .mapping [(.text "plain", (⟨s, .scalar (.text "non_hidden")⟩ : Stored))] := ⟨_, rfl⟩
  have hplain : IsDefinition (⟨s, .scalar (.text "non_hidden")⟩ : Stored) (.preset .nonHidden) :=
    .preset rfl
  have hc' : List.Forall₂ Defines [(.text "plain", _)] _ :=
    .cons (exists_defines rfl hplain) .nil
  obtain ⟨h'', hload'⟩ := load_of_forall₂ hsection hc' none (.initial .empty)
  cases hload.symm.trans (hload'.eq hblocks)
  cases hc.length_eq.trans hc'.length_eq.symm

end Catalogue

end Winnow
