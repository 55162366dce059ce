/-
Winnow/Proofs/Settings/Merged.lean

Reading one setting, and reading all settings merged.

`find?` searches the layers from the highest down for a value under a path;
`merged` lays the layers over one another from the lowest up.  The two agree in
one direction: a leaf of the merged settings is what the search finds
(`get_eq_of_merged`).

They do not agree in the other direction.  No value counts as no setting in the
search, and what is no mapping hides nothing from it; both take the place of
what was there in the merged settings (`not_merged_of_find?`).  A leaf that is
found is kept in the merged settings exactly when all layers above its own are
silent about its path (`merged_keeps_iff`).
-/
import Winnow.Proofs.Settings.Reachable

namespace Winnow

/-! ### Keys -/

namespace Text

theorem splitAt_ne_nil {α : Type} [DecidableEq α] (separator : α) (row : List α) :
    splitAt separator row ≠ [] := by
  cases row with
  | nil => exact List.cons_ne_nil _ _
  | cons c rest =>
    rw [splitAt]
    split
    · exact List.cons_ne_nil _ _
    · split <;> exact List.cons_ne_nil _ _

end Text

/-- A key has at least one part. -/
theorem Setting.keyParts_ne_nil (key : String) : keyParts key ≠ [] :=
  fun h => Text.splitAt_ne_nil _ _ (List.map_eq_nil_iff.mp h)

/-! ### Layers -/

namespace Layers

variable {l : Layers} {s t : Store} {path : List String} {source : Source} {all v : Item}

/-- What is found in the merged layers is what the merged entries have. -/
theorem exists_mergeOver_of_merged [Stack] (hs : s.Sound) (h : l.merged s = (.ok all, t)) :
    ∃ entries u, l.mergeOver Source.all [] s = (.ok entries, u) ∧ u.Sound ∧
      u.Fits (.mapping entries) ∧ u.GrowsTo t ∧ t.entries? all = some entries := by
  unfold Layers.merged at h
  split at h
  · rename_i entries u hmerge
    obtain ⟨-, hu, hentries⟩ := mergeOver_sound hmerge hs Store.fits_mapping_nil
    cases h
    exact ⟨entries, u, hmerge, hu, hentries entries rfl, Store.growsTo_add u _, Store.entries?_add⟩
  · cases h

/-- A leaf of the merged layers is what the search finds. -/
theorem exists_find?_of_merged [Stack] (hs : s.Sound) (hl : l.Held s)
    (h : l.merged s = (.ok all, t))
    (hpath : path ≠ []) (hv : t.find? all path = some v) (hnull : v.isNull = false)
    (hleaf : t.entries? v = .none) : ∃ source, l.find? s path = some (source, v) := by
  obtain ⟨entries, u, hmerge, hu, hfits, hgrows, hentries⟩ := exists_mergeOver_of_merged hs h
  rw [Store.find?_eq_look hpath, hentries, Option.bind_some, hgrows.look_eq hu hfits] at hv
  rw [hgrows.entries?_eq (hfits.holds_of_look hu hv)] at hleaf
  rcases mergeOver_of_leaf hmerge hs hl Store.fits_mapping_nil hpath hv hleaf with
    ⟨hlook, -⟩ | ⟨before, source, after, hall, hitem, habove⟩
  · -- nothing is there before the first layer
    cases path with
    | nil => exact absurd rfl hpath
    | cons key rest => cases hlook
  · refine ⟨source, find?_eq_some_iff.mpr ⟨at?_eq_some_iff.mpr ⟨hitem, hnull⟩, ?_⟩⟩
    intro higher hrank
    refine Option.eq_none_iff_forall_ne_some.mpr fun w hw => ?_
    obtain ⟨hitemHigher, -⟩ := at?_eq_some_iff.mp hw
    rw [habove higher ((mem_after_iff hall).mpr hrank)] at hitemHigher
    cases hitemHigher

theorem isNull_of_at?_eq_none (h : l.at? s path source = .none) {w : Item}
    (hw : l.itemAt? s path source = some w) : w.isNull = true := by
  refine Bool.of_not_eq_false fun hfalse => ?_
  rw [at?_eq_some_iff.mpr ⟨hw, hfalse⟩] at h
  cases h

/-- A leaf that the search finds is kept in the merged layers exactly when all
layers above its own are silent about the path. -/
theorem find?_merged_iff [Stack] (hs : s.Sound) (hl : l.Held s) (h : l.merged s = (.ok all, t))
    (hpath : path ≠ []) (hfind : l.find? s path = some (source, v))
    (hleaf : s.entries? v = .none) :
    t.find? all path = some v ↔
      ∀ higher, source.rank < higher.rank → l.SilentAt s path higher := by
  obtain ⟨hat, habove⟩ := find?_eq_some_iff.mp hfind
  obtain ⟨hitem, hnull⟩ := at?_eq_some_iff.mp hat
  obtain ⟨entries, u, hmerge, hu, hfits, hgrows, hentries⟩ := exists_mergeOver_of_merged hs h
  rw [Store.find?_eq_look hpath, hentries, Option.bind_some, hgrows.look_eq hu hfits]
  have hmem : source ∈ Source.all := by cases source <;> decide
  obtain ⟨before, after, hall⟩ := List.append_of_mem hmem
  rw [hall] at hmerge
  -- the leaf is there after its own layer; the layers above keep it or lose it
  obtain ⟨next, t₂, hfirst, ht₂, hnextFits, hthere, hlast⟩ :=
    exists_look_after hmerge hs hl Store.fits_mapping_nil hpath hitem hleaf
  have hnulls : ∀ x ∈ after, ∀ w, l.itemAt? t₂ path x = some w → w.isNull = true := by
    intro x hx w hw
    rw [itemAt?_of_growsTo hfirst hs hl] at hw
    exact isNull_of_at?_eq_none (habove x ((mem_after_iff hall).mp hx)) hw
  rw [mergeOver_eq_some_iff hlast ht₂ (hl.mono hfirst.size_le) hnextFits hpath hnull hnulls hthere]
  simp only [silentAt_of_growsTo hfirst hs hl, mem_after_iff hall]

/-- Layers that are mappings merge, or one of them nests too deep. -/
theorem merged_or_tooDeep [Stack] (hs : s.Sound) (hl : l.Held s)
    (hmappings : ∀ source layer, l source = some layer → (s.entries? layer).isSome = true) :
    (∃ all t, l.merged s = (.ok all, t)) ∨
    (∃ t, l.merged s = (.error .tooDeep, t)) ∧
      ∃ source layer, l source = some layer ∧ ¬ s.NestsWithin Stack.mappings layer := by
  unfold Layers.merged
  cases hmerge : l.mergeOver Source.all [] s with
  | mk outcome t =>
    cases outcome with
    | ok entries => exact .inl ⟨_, _, rfl⟩
    | error fault =>
      have hfault := mergeOver_error hmerge hs hl Store.fits_mapping_nil
        fun source _ layer hlayer => hmappings source layer hlayer
      subst hfault
      refine .inr ⟨⟨t, rfl⟩, ?_⟩
      by_contra hnone
      -- otherwise the layers would have merged
      obtain ⟨merged, u, hok⟩ := exists_mergeOver hs hl Store.fits_mapping_nil
        fun source (_ : source ∈ Source.all) layer hlayer =>
          ⟨hmappings source layer hlayer,
            not_not.mp fun hdeep => hnone ⟨source, layer, hlayer, hdeep⟩⟩
      rw [hmerge] at hok
      cases hok

end Layers

/-! ### Registries -/

namespace Registry

open Setting (keyParts keyParts_ne_nil)

variable {r r' : Registry} {n : Nat} {key : String} {all v : Item} {source : Source}

theorem merged_eq_ok_iff [Stack] :
    r.merged n = (.ok all, r') ↔
      ∃ t, (r.layers n).merged r.store = (.ok all, t) ∧ r' = { r with store := t } := by
  unfold Registry.merged
  split
  · rename_i item t hmerged
    simp only [hmerged, Prod.mk.injEq, Except.ok.injEq]
    constructor
    · rintro ⟨rfl, rfl⟩
      exact ⟨t, ⟨rfl, rfl⟩, rfl⟩
    · rintro ⟨u, ⟨rfl, rfl⟩, rfl⟩
      exact ⟨rfl, rfl⟩
  · rename_i fault t hmerged
    simp [hmerged]

theorem get_of_find? {path : List String} (h : r.find? n path = some (source, v))
    (default : Item) : r.get n path default = v := by
  show (((r.layers n).find? r.store path).map (·.2)).getD default = v
  rw [show (r.layers n).find? r.store path = some (source, v) from h]
  rfl

/-- What the merged settings have under a path. -/
def mergedAt? [Stack] (r : Registry) (n : Nat) (path : List String) : Option Item :=
  match r.merged n with
  | (.ok all, r') => r'.store.find? all path
  | (.error _, _) => none

theorem mergedAt?_eq_some_iff [Stack] {path : List String} :
    r.mergedAt? n path = some v ↔
      ∃ all r', r.merged n = (.ok all, r') ∧ r'.store.find? all path = some v := by
  unfold mergedAt?
  split
  · rename_i all r' hmerged
    constructor
    · exact fun hv => ⟨all, r', hmerged, hv⟩
    · rintro ⟨other, r'', hother, hv⟩
      cases hmerged.symm.trans hother
      exact hv
  · rename_i fault r' hmerged
    refine iff_of_false nofun ?_
    rintro ⟨other, r'', hother, -⟩
    cases hmerged.symm.trans hother

open scoped Stack in
/-- New settings in which the level of the log has been set. -/
def withLevel (level : Item) : Registry :=
  let (_, r) := empty.add .empty none none
  let (_, r) := r.set 0 Setting.logLevel level .runtime
  r

open scoped Stack in
theorem reachable_withLevel (x : Scalar) : (withLevel (.scalar x)).Reachable := by
  have hnew : Reachable (empty.add .empty none none).2 := .add _ _ _ .empty
  have hset := @Reachable.set _ _ 0 Setting.logLevel (.scalar x) .runtime hnew trivial
  exact hset

open scoped Stack in
theorem exists_merged_withLevel (x : Scalar) : ∃ all r',
    (withLevel (.scalar x)).merged 0 = (.ok all, r') ∧
      r'.store.find? all (keyParts "resfilter.logging.level") = some (.scalar x) := by
  have hthere : (withLevel (.scalar x)).mergedAt? 0 (keyParts "resfilter.logging.level")
      = some (.scalar x) := by cbv
  exact mergedAt?_eq_some_iff.mp hthere

/-! ### Leaves of the merged settings -/

/-- **Leaves of the merged settings are what is found.**  Where the merged
settings have a value under a key that is no mapping, looking the key up gives
this value, whatever the default; it comes from the highest source whose layer
has a value there. -/
theorem get_eq_of_merged [Stack] (hr : r.Sound) (hmerged : r.merged n = (.ok all, r'))
    (hv : r'.store.find? all (keyParts key) = some v) (hnull : v.isNull = false)
    (hleaf : r'.store.entries? v = none) :
    (∀ default, r.get n (keyParts key) default = v) ∧
      ∃ source, r.find? n (keyParts key) = some (source, v) ∧
        (∃ layer, r.layers n source = some layer ∧
          r.store.find? layer (keyParts key) = some v) ∧
        ∀ higher layer w, source.rank < higher.rank → r.layers n higher = some layer →
          r.store.find? layer (keyParts key) = some w → w.isNull = true := by
  obtain ⟨t, hlayers, rfl⟩ := merged_eq_ok_iff.mp hmerged
  obtain ⟨source, hfind⟩ := Layers.exists_find?_of_merged hr.store (hr.layers n) hlayers
    (keyParts_ne_nil key) hv hnull hleaf
  obtain ⟨hat, habove⟩ := Layers.find?_eq_some_iff.mp hfind
  obtain ⟨hitem, -⟩ := Layers.at?_eq_some_iff.mp hat
  refine ⟨get_of_find? hfind, source, hfind, Option.bind_eq_some_iff.mp hitem, ?_⟩
  intro higher layer w hrank hlayer hw
  exact Layers.isNull_of_at?_eq_none (habove higher hrank)
    (Option.bind_eq_some_iff.mpr ⟨layer, hlayer, hw⟩)

open scoped Stack in
theorem get_eq_of_merged_debug :
    (withLevel (.scalar (.text "DEBUG"))).get 0 (keyParts "resfilter.logging.level") .null
      = .scalar (.text "DEBUG") := by
  obtain ⟨all, r', hmerged, hv⟩ := exists_merged_withLevel (.text "DEBUG")
  have hget := get_eq_of_merged (reachable_withLevel _).sound hmerged hv rfl rfl
  exact hget.1 .null

/-! ### Leaves that are kept -/

/-- The layers of settings are mappings. -/
def HasMappings (r : Registry) (n : Nat) : Prop :=
  ∀ source layer, r.layers n source = some layer → (r.store.entries? layer).isSome = true

theorem hasMappings_withLevel (x : Scalar) : (withLevel (.scalar x)).HasMappings 0 := by
  intro source layer hlayer
  cases source <;> cbv at hlayer <;> cases hlayer <;> cbv

theorem find?_withLevel_null :
    (withLevel .null).find? 0 (keyParts "resfilter.logging.level")
      = some (.defaults, .scalar (.text "INFO")) := by
  cbv

/-- **When a leaf is kept in the merged settings.**  Let the layers be mappings, and
let a value that is no mapping be found in the layer of a source.  Then the
settings merge, and have this value under the key exactly when all layers above
are silent about it; or they do not merge, because one layer nests too deep. -/
theorem merged_keeps_iff [Stack] (hr : r.Reachable) (hmappings : r.HasMappings n)
    (hfind : r.find? n (keyParts key) = some (source, v)) (hleaf : r.store.entries? v = none) :
    (∃ all r', r.merged n = (.ok all, r') ∧
      (r'.store.find? all (keyParts key) = some v ↔ ∀ higher, source.rank < higher.rank →
        (r.layers n).SilentAt r.store (keyParts key) higher)) ∨
    (∃ r', r.merged n = (.error (.layer .tooDeep), r')) ∧
      ∃ other layer, r.layers n other = some layer ∧
        ¬ r.store.NestsWithin Stack.mappings layer := by
  have hs := hr.sound.store
  have hl := hr.sound.layers n
  rcases Layers.merged_or_tooDeep hs hl hmappings with ⟨all, t, hmerged⟩ | ⟨⟨t, hmerged⟩, hdeep⟩
  · exact .inl ⟨all, { r with store := t }, merged_eq_ok_iff.mpr ⟨t, hmerged, rfl⟩,
      Layers.find?_merged_iff hs hl hmerged (keyParts_ne_nil key) hfind hleaf⟩
  · refine .inr ⟨⟨{ r with store := t }, ?_⟩, hdeep⟩
    unfold Registry.merged
    rw [hmerged]

open scoped Stack in
/-- The default level is not kept where the level has been set to no value. -/
theorem merged_keeps_iff_null :
    ∃ all r', (withLevel .null).merged 0 = (.ok all, r') ∧
      (r'.store.find? all (keyParts "resfilter.logging.level") = some (.scalar (.text "INFO")) ↔
        ∀ higher, Source.defaults.rank < higher.rank →
          ((withLevel .null).layers 0).SilentAt (withLevel .null).store
            (keyParts "resfilter.logging.level") higher) := by
  rcases merged_keeps_iff (reachable_withLevel .null) (hasMappings_withLevel .null)
    find?_withLevel_null rfl with hkept | ⟨⟨r', hfails⟩, -⟩
  · exact hkept
  · obtain ⟨all, r'', hmerged, -⟩ := exists_merged_withLevel .null
    rw [hmerged] at hfails
    cases hfails

open scoped Stack in
/-- **What is found is not always in the merged settings.**  A level that is set to
no value uncovers the default for the search, and covers it in the merged
settings. -/
theorem not_merged_of_find? : ¬ ∀ (r : Registry) (n : Nat) (key : String) (source : Source)
    (v : Item), r.Reachable → r.HasMappings n →
    r.find? n (keyParts key) = some (source, v) → r.store.entries? v = none →
    ∃ all r', r.merged n = (.ok all, r') ∧ r'.store.find? all (keyParts key) = some v := by
  intro hkept
  obtain ⟨all, r', hmerged, hv⟩ := hkept (withLevel .null) 0 _ _ _
    (reachable_withLevel .null) (hasMappings_withLevel .null) find?_withLevel_null rfl
  obtain ⟨all', r'', hmerged', hnull⟩ := exists_merged_withLevel .null
  cases hmerged.symm.trans hmerged'
  cases hv.symm.trans hnull

end Registry

end Winnow
