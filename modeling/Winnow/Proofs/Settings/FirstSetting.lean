/-
Winnow/Proofs/Settings/FirstSetting.lean

The first setting that is put into new settings.

New settings have the layer of the defaults and no other, and nobody watches them
(`Registry.Fresh`).  So whatever its key is, nothing is in the way of the first setting:
its layer is new and gets the sections on the way and nothing else, and it is put there and
told, as long as the path and the value do not go deeper than layers can be merged
(`Registry.Fresh.exists_set`).
-/
import Winnow.Proofs.Settings.Histories
import Winnow.Proofs.Settings.Order
import Winnow.Proofs.Store.OneWay

namespace Winnow

namespace Store

/-- In the defaults there are sections within a section, and these hold no more sections. -/
theorem nestsWithin_defaults (s : Store) :
    (s.place Setting.defaults).2.NestsWithin 3 (s.place Setting.defaults).1 := by
  obtain ⟨root, log, filters, hall, hroot, hlog, hfilters⟩ := exists_sections_of_defaults s
  have hlogNests : (s.place Setting.defaults).2.NestsWithin 1 log :=
    nestsWithin_of_entries hlog (List.forall_mem_cons.mpr ⟨rfl, List.forall_mem_singleton.mpr rfl⟩)
  have hfiltersNests : (s.place Setting.defaults).2.NestsWithin 1 filters :=
    nestsWithin_of_entries hfilters nofun
  have hrootNests := nestsWithin_of_entries hroot
    (List.forall_mem_cons.mpr ⟨hlogNests, List.forall_mem_singleton.mpr hfiltersNests⟩)
  exact nestsWithin_of_entries hall (List.forall_mem_singleton.mpr hrootNests)

end Store

namespace Registry

variable {r q r₁ : Registry} {n depth : Nat} {path : List String} {value item : Item}
  {source : Source} {s : Store}

/-- A change that nobody is told of succeeds if the layers merge then. -/
theorem set_of_nobody [Stack] (hnobody : r.watchers n = [])
    (hassign : r.assign n path value source = (.ok (), r₁))
    (hmerged : r₁.merged n = (.ok item, q)) : r.set n path value source = (.ok (), q) := by
  have hset := set_eq_announce hassign
  have hwatchers : q.watchers n = [] := by
    rw [(sameWatchers_merged hmerged).watchers, (sameWatchers_assign hassign).watchers, hnobody]
  rw [hset]
  unfold announce
  rw [hmerged]
  dsimp only
  rw [hwatchers]
  rfl

/-- Settings that nobody watches, and that have a layer of defaults only, which can be merged. -/
structure Fresh [Stack] (n : Nat) (r : Registry) : Prop extends r.Unwatched n where
  absent : ∀ source ≠ .defaults, r.layers n source = none
  merges : ∀ layer, r.layers n .defaults = some layer →
    (r.store.entries? layer).isSome = true ∧ r.store.NestsWithin Stack.mappings layer

theorem fresh_of_add [Stack] {f : Files} (hr : r.Sound) (hadd : r.add f none none = (.ok n, q)) :
    q.Fresh n := by
  obtain ⟨hq, habsent⟩ := unwatched_new hr hadd
  refine ⟨hq, habsent, fun layer hlayer => ?_⟩
  obtain ⟨l, t, hnew, rfl, rfl⟩ := add_eq_ok_iff.mp hadd
  rw [layers_withNew] at hlayer
  cases hnew
  cases hlayer
  exact ⟨congrArg Option.isSome Store.entries?_add,
    (Store.nestsWithin_defaults r.store).mono (Stack.le_mappings (by decide))⟩

/-- Settings stay fresh while a program makes objects. -/
theorem Fresh.withStore [Stack] (h : r.Fresh n) (hgrows : r.store.GrowsTo s) (hs : s.Sound) :
    ({ r with store := s } : Registry).Fresh n := by
  refine ⟨h.toUnwatched.withStore ⟨hgrows.size_le, hs⟩, h.absent, fun layer hlayer => ?_⟩
  obtain ⟨hmapping, hnests⟩ := h.merges layer hlayer
  have hheld := h.sound.layers n .defaults layer hlayer
  exact ⟨by rw [hgrows.entries?_eq hheld]; exact hmapping,
    hgrows.nestsWithin h.sound.store hheld hnests⟩

/-- The layer of a source holds one setting and nothing else, and all else in the layers is as it
was. -/
structure SetFirst (r : Registry) (n : Nat) (path : List String) (value : Item) (source : Source)
    (q : Registry) : Prop where
  way : ∃ layer, q.layers n source = some layer ∧ q.store.OneWay value layer path
  others : ∀ other ≠ source, q.layers n other = r.layers n other
  grows : r.store.GrowsTo q.store

theorem Fresh.assign [Stack] (h : r.Fresh n) (hpath : path ≠ []) (hsource : source ≠ .defaults)
    (value : Item) :
    ∃ q, r.assign n path value source = (.ok (), q) ∧ r.SetFirst n path value source q := by
  have hempty : (r.store.add (.mapping [])).2.entries? (r.store.add (.mapping [])).1 = some [] :=
    Store.entries?_add
  obtain ⟨t, hassign, hway, hframe⟩ := Store.exists_oneWay_of_assign hempty hpath value
  let l := (r.layers n).update source (some (.object r.store.size))
  refine ⟨r.setLayers n l t, ?_, ⟨⟨.object r.store.size, ?_, hway⟩, fun other hother => ?_,
    fun a c hc => ?_⟩⟩
  · unfold Registry.assign Layers.assign Layers.ensure
    rw [h.absent source hsource]
    dsimp only
    rw [show r.store.add (.mapping []) = (.object r.store.size, (r.store.add (.mapping [])).2)
      from rfl]
    dsimp only
    rw [hassign]
  · rw [layers_setLayers_of_lt h.there]
    exact if_pos rfl
  · rw [layers_setLayers_of_lt h.there]
    exact if_neg hother
  · have ha := Store.lt_size_of_cell? hc
    have hsize : a < (r.store.add (.mapping [])).2.size := by
      rw [Store.size_add]
      omega
    exact (hframe a hsize (Nat.ne_of_lt ha)).trans (Store.growsTo_add _ _ a c hc)

/-- **The first setting of new settings** is put into its layer and told, whatever its key is. -/
theorem Fresh.exists_set [Stack] (h : r.Fresh n) (hvalue : r.store.Holds value)
    (hnests : r.store.NestsWithin depth value) (hpath : path ≠ [])
    (hdepth : depth + path.length ≤ Stack.mappings) (hsource : source ≠ .defaults) :
    ∃ q, r.set n path value source = (.ok (), q) ∧ r.SetFirst n path value source q := by
  obtain ⟨r₁, hassign, hfirst⟩ := h.assign hpath hsource value
  have hr₁ := (assign_leadsTo h.sound hvalue hassign).sound
  obtain ⟨layer, hlayer, hway⟩ := hfirst.way
  have hlayers : ∀ other i, r₁.layers n other = some i →
      (r₁.store.entries? i).isSome = true ∧ r₁.store.NestsWithin Stack.mappings i := by
    intro other i hi
    by_cases hother : other = source
    · subst hother
      cases hlayer.symm.trans hi
      have hvalueNests := hfirst.grows.nestsWithin h.sound.store hvalue hnests
      exact ⟨hway.isSome_entries? hpath, (hway.nestsWithin hvalueNests).mono hdepth⟩
    · rw [hfirst.others other hother] at hi
      have hdefaults : other = .defaults := by
        by_contra hne
        rw [h.absent other hne] at hi
        cases hi
      subst hdefaults
      obtain ⟨hmapping, hnests⟩ := h.merges i hi
      have hheld := h.sound.layers n .defaults i hi
      rw [hfirst.grows.entries?_eq hheld]
      exact ⟨hmapping, hfirst.grows.nestsWithin h.sound.store hheld hnests⟩
  rcases Layers.merged_or_tooDeep hr₁.store (hr₁.layers n)
    (fun other i hi => (hlayers other i hi).1)
    with ⟨item, t, hmerged⟩ | ⟨-, other, i, hi, hdeep⟩
  · have hmerged := merged_eq_ok_iff.mpr ⟨t, hmerged, rfl⟩
    have hkept := kept_merged hr₁ hmerged
    refine ⟨_, set_of_nobody h.nobody hassign hmerged, ⟨⟨layer, ?_, hway.mono hkept.grows⟩,
      fun other hother => ?_, hfirst.grows.trans hkept.grows⟩⟩
    · rw [hkept.layers, hlayer]
    · rw [hkept.layers, hfirst.others other hother]
  · exact absurd (hlayers other i hi).2 hdeep

/-- What is found on the way of the first setting comes from its layer. -/
theorem SetFirst.exists_find? [Stack] {p after : List String}
    (h : r.SetFirst n (p ++ after) value source q) (hr : r.Fresh n) (hsource : source ≠ .defaults) :
    ∃ i, q.store.OneWay value i after ∧ (i.isNull = false → q.find? n p = some (source, i)) := by
  obtain ⟨layer, hlayer, hway⟩ := h.way
  obtain ⟨i, hi, hafter⟩ := hway.find?
  refine ⟨i, hafter, fun hnull => Layers.find?_eq_some_iff.mpr ⟨?_, fun higher hrank => ?_⟩⟩
  · refine Layers.at?_eq_some_iff.mpr ⟨?_, hnull⟩
    rw [Layers.itemAt?, hlayer, Option.bind_some, hi]
  · -- above the source there is no layer: that of the defaults is below all others
    have hne : higher ≠ source := fun heq => absurd hrank (heq ▸ Nat.lt_irrefl _)
    have hdefaults : higher ≠ .defaults := by
      rintro rfl
      revert hrank
      cases source <;> decide
    rw [Layers.at?, h.others higher hne, hr.absent higher hdefaults]
    rfl

end Registry

end Winnow
