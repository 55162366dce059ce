/-
Winnow/Proofs/Settings/Sections.lean

A section in the merged layers.

A mapping in the merged layers comes from layers that have mappings there
(`exists_mappingAt_of_merged`).  Layers that have nothing under its path leave it,
and all that lies behind it, as it is (`mergeOver_of_none`, `mergeOver_of_silent`).
So what the highest layer with such a section has in it is there in the merged
section, as it is or merged with what a lower layer has (`merged_section`).
-/
import Winnow.Proofs.Settings.Merged

namespace Winnow

namespace Layers

open Store (Laid)

variable {l : Layers} {s t : Store} {entries merged own whole : List (Value × Item)}
  {path : List String} {i all w : Item} {source : Source} {sources : List Source}

/-- The layer of a source has a mapping under a path. -/
def MappingAt (l : Layers) (s : Store) (path : List String) (source : Source) : Prop :=
  ∃ i inner, l.itemAt? s path source = some i ∧ s.entries? i = some inner

theorem mappingAt_of_growsTo (h : s.GrowsTo t) (hs : s.Sound) (hl : l.Held s)
    (hmapping : l.MappingAt t path source) : l.MappingAt s path source := by
  obtain ⟨i, inner, hitem, hinner⟩ := hmapping
  rw [itemAt?_of_growsTo h hs hl] at hitem
  obtain ⟨layer, hlayer, hfind⟩ := Option.bind_eq_some_iff.mp hitem
  rw [h.entries?_eq (hs.holds_of_find? (hl source layer hlayer) hfind)] at hinner
  exact ⟨i, inner, hitem, hinner⟩

/-- A mapping among the merged entries was one before, or some layer has a mapping
under its path. -/
theorem mergeOver_of_mapping [Stack] {j : Item} {inner : List (Value × Item)}
    (h : l.mergeOver sources entries s = (.ok merged, t)) (hs : s.Sound) (hl : l.Held s)
    (hentries : s.Fits (.mapping entries)) (hpath : path ≠ [])
    (hj : t.look merged path = some j) (hinner : t.entries? j = some inner) :
    (∃ i inner, s.look entries path = some i ∧ s.entries? i = some inner) ∨
      ∃ source ∈ sources, l.MappingAt s path source := by
  induction sources generalizing entries s with
  | nil =>
    cases h
    exact .inl ⟨j, inner, hj, hinner⟩
  | cons source rest ih =>
    rcases mergeOver_cons h with ⟨-, h⟩ | ⟨layer, upper, next, u, hlayer, hupper, hlaid, h⟩
    · rcases ih h hs hl hentries with hbefore | ⟨found, hfound, hmapping⟩
      · exact .inl hbefore
      · exact .inr ⟨found, List.mem_cons_of_mem _ hfound, hmapping⟩
    · have hupperFits := hs.fits_entries hupper
      obtain ⟨hgrows, hu, hnext⟩ := hlaid.sound hs hentries hupperFits
      have hitem := itemAt?_eq_look hpath hlayer hupper
      -- a mapping after this layer was there, or the layer has it
      rcases ih h hu (hl.mono hgrows.size_le) hnext with
        ⟨i, under, hi, hunder⟩ | ⟨found, hfound, hmapping⟩
      · cases hlaid.path hs hentries hupperFits hpath with
        | silent _ hkept =>
          rw [hkept] at hi
          rw [hgrows.entries?_eq (hentries.holds_of_look hs hi)] at hunder
          exact .inl ⟨i, under, hi, hunder⟩
        | @replaced v hv _ hthere =>
          cases hthere.symm.trans hi
          rw [hgrows.entries?_eq (hupperFits.holds_of_look hs hv)] at hunder
          exact .inr ⟨source, List.mem_cons_self, _, under, hitem.trans hv, hunder⟩
        | @nested v _ _ above _ _ _ hv _ habove _ _ _ _ _ _ =>
          exact .inr ⟨source, List.mem_cons_self, v, above, hitem.trans hv, habove⟩
        | blocked _ _ hthere =>
          rw [hthere] at hi
          cases hi
      · exact .inr ⟨found, List.mem_cons_of_mem _ hfound,
          mappingAt_of_growsTo hgrows hs hl hmapping⟩

/-- Layers that are silent about a path keep what there is. -/
theorem mergeOver_of_silent [Stack] (h : l.mergeOver sources entries s = (.ok merged, t))
    (hs : s.Sound) (hl : l.Held s) (hentries : s.Fits (.mapping entries)) (hpath : path ≠ [])
    (hsilent : ∀ source ∈ sources, l.SilentAt s path source) :
    t.look merged path = s.look entries path := by
  induction sources generalizing entries s with
  | nil =>
    cases h
    rfl
  | cons source rest ih =>
    obtain ⟨hsource, hrest⟩ := List.forall_mem_cons.mp hsilent
    rcases mergeOver_cons h with ⟨-, h⟩ | ⟨layer, upper, next, u, hlayer, hupper, hlaid, h⟩
    · exact ih h hs hl hentries hrest
    · have hupperFits := hs.fits_entries hupper
      obtain ⟨hgrows, hu, hnext⟩ := hlaid.sound hs hentries hupperFits
      rw [silentAt_iff hpath hlayer hupper] at hsource
      rw [← hlaid.look_of_silent hs hentries hupperFits hpath hsource]
      exact ih h hu (hl.mono hgrows.size_le) hnext fun x hx =>
        (silentAt_of_growsTo hgrows hs hl).mpr (hrest x hx)

/-- Layers that have nothing under a path bring nothing there. -/
theorem mergeOver_of_none [Stack] {j : Item} (h : l.mergeOver sources entries s = (.ok merged, t))
    (hs : s.Sound) (hl : l.Held s) (hentries : s.Fits (.mapping entries)) (hpath : path ≠ [])
    (hnone : ∀ source ∈ sources, l.itemAt? s path source = .none) (hj : j.isNull = false)
    (hlook : t.look merged path = some j) :
    s.look entries path = some j ∧ ∀ source ∈ sources, l.SilentAt s path source := by
  have hnull : ∀ source ∈ sources, ∀ w, l.itemAt? s path source = some w → w.isNull = true := by
    intro source hsource w hw
    rw [hnone source hsource] at hw
    cases hw
  have hthere : s.look entries path = some j := not_not.mp fun hne =>
    mergeOver_ne h hs hl hentries hpath hj hnull hne hlook
  exact ⟨hthere, (mergeOver_eq_some_iff h hs hl hentries hpath hj hnull hthere).mp hlook⟩

theorem SilentAt.append (h : l.SilentAt s path source) (hpath : path ≠ []) (after : List String) :
    l.SilentAt s (path ++ after) source := by
  intro layer hlayer before w hprefix hw
  have hroot := h layer hlayer [] layer List.nil_prefix rfl
  obtain ⟨upper, hupper⟩ := Option.isSome_iff_exists.mp hroot.2
  have hsilent := ((silentAt_iff hpath hlayer hupper).mp h).append after
  have hlonger : path ++ after ≠ [] := List.append_ne_nil_of_left_ne_nil hpath after
  exact (silentAt_iff hlonger hlayer hupper).mpr hsilent layer hlayer before w hprefix hw

/-- A mapping in the merged layers comes from layers that have mappings there. -/
theorem exists_mappingAt_of_merged [Stack] (hs : s.Sound) (hl : l.Held s)
    (h : l.merged s = (.ok all, t))
    (hpath : path ≠ []) (hw : t.find? all path = some w) (hwhole : t.entries? w = some whole) :
    ∃ source, l.MappingAt s path source := by
  obtain ⟨entries, u, hmerge, hu, hfits, hgrows, hentries⟩ := exists_mergeOver_of_merged hs h
  rw [Store.find?_eq_look hpath, hentries, Option.bind_some, hgrows.look_eq hu hfits] at hw
  rw [hgrows.entries?_eq (hfits.holds_of_look hu hw)] at hwhole
  rcases mergeOver_of_mapping hmerge hs hl Store.fits_mapping_nil hpath hw hwhole with
    ⟨_, _, hnil, -⟩ | ⟨source, -, hmapping⟩
  · cases path with
    | nil => exact absurd rfl hpath
    | cons key rest => cases hnil
  · exact ⟨source, hmapping⟩

/-- A layer is laid over those below.  What it has under a path is there then; only
where this is a mapping and one of the layers below has a mapping there too, are the
two merged. -/
theorem look_of_around [Stack] {before : List Source} {layer v : Item}
    {upper under next : List (Value × Item)} {t₁ t₂ : Store}
    (hbelow : l.mergeOver before [] s = (.ok under, t₁)) (hs : s.Sound) (hl : l.Held s)
    (hlayer : l source = some layer) (hupper : s.entries? layer = some upper)
    (hlaid : Laid t₁ under upper t₂ next) (hpath : path ≠ []) (hv : s.look upper path = some v) :
    t₂.look next path = some v ∨ (∃ fresh, t₂.look next path = some fresh) ∧
      l.MappingAt s path source ∧ ∃ lower ∈ before, l.MappingAt s path lower := by
  obtain ⟨hgrows, ht₁, hunder⟩ := mergeOver_sound hbelow hs Store.fits_mapping_nil
  have hupperFits := hs.fits_entries hupper
  have hv₁ : t₁.look upper path = some v := by
    rw [hgrows.look_eq hs hupperFits, hv]
  cases hlaid.path ht₁ (hunder under rfl) (hupperFits.mono hgrows.size_le) hpath with
  | silent hnothing _ =>
    rw [Store.look_eq_none_of_silent hnothing] at hv₁
    cases hv₁
  | replaced hx _ hnext =>
    cases hx.symm.trans hv₁
    exact .inl hnext
  | @nested x fresh mid top _ _ _ hx hmid htop _ _ _ _ hnext _ =>
    cases hx.symm.trans hv₁
    refine .inr ⟨⟨fresh, hnext⟩, ?_, ?_⟩
    · rw [hgrows.entries?_eq (hupperFits.holds_of_look hs hv)] at htop
      exact ⟨v, top, (itemAt?_eq_look hpath hlayer hupper).trans hv, htop⟩
    · obtain ⟨j, hj, hmid⟩ := Option.bind_eq_some_iff.mp hmid
      rcases mergeOver_of_mapping hbelow hs hl Store.fits_mapping_nil hpath hj hmid with
        ⟨_, _, hnil, -⟩ | hlower
      · -- nothing is there before the first layer
        cases path with
        | nil => exact absurd rfl hpath
        | cons key rest => cases hnil
      · exact hlower
  | blocked _ hnone _ =>
    rw [hnone] at hv₁
    cases hv₁

/-- **The merged section.**  Let the highest layer that has anything under a path have
a mapping there, and let the merged layers have one there.  What the layer has
under a key of it is there in the merged mapping; only where this is a mapping
and a lower layer has a mapping there too, are the two merged. -/
theorem merged_section [Stack] (hs : s.Sound) (hl : l.Held s) (h : l.merged s = (.ok all, t))
    (hpath : path ≠ []) (hitem : l.itemAt? s path source = some i)
    (hown : s.entries? i = some own)
    (habove : ∀ higher, source.rank < higher.rank → l.itemAt? s path higher = .none)
    (hw : t.find? all path = some w) (hwhole : t.entries? w = some whole) {key : String} {v : Item}
    (hv : Entries.find? (.text key) own = some v) :
    Entries.find? (.text key) whole = some v ∨
      (∃ fresh, Entries.find? (.text key) whole = some fresh) ∧
        l.MappingAt s (path ++ [key]) source ∧
        ∃ lower, lower.rank < source.rank ∧ l.MappingAt s (path ++ [key]) lower := by
  obtain ⟨entries, u, hmerge, hu, hfits, hgrows, hentries⟩ := exists_mergeOver_of_merged hs h
  have hlonger : path ++ [key] ≠ [] := List.append_ne_nil_of_left_ne_nil hpath [key]
  -- what the merged mapping has under the key is found under the longer path
  have hkey : u.look entries (path ++ [key]) = Entries.find? (.text key) whole := by
    rw [← Store.find?_append_key hw hwhole, Store.find?_eq_look hlonger, hentries,
      Option.bind_some, hgrows.look_eq hu hfits]
  have hwNull : w.isNull = false := by
    obtain ⟨a, rfl, -⟩ := Store.entries?_eq_some_iff.mp hwhole
    rfl
  rw [Store.find?_eq_look hpath, hentries, Option.bind_some, hgrows.look_eq hu hfits] at hw
  -- the layers below, the layer itself, and the layers above, one after another
  have hmem : source ∈ Source.all := by cases source <;> decide
  obtain ⟨before, after, hall⟩ := List.append_of_mem hmem
  obtain ⟨layer, hlayer, hfind⟩ := Option.bind_eq_some_iff.mp hitem
  have hthere := Store.find?_append_key hfind hown key
  rw [hv, Store.find?_eq_look hlonger] at hthere
  obtain ⟨upper, hupper, hthere⟩ := Option.bind_eq_some_iff.mp hthere
  rw [hall] at hmerge
  obtain ⟨under, t₁, next, t₂, hbelow, hgrows₁, ht₁, hunder, hlaid, hrest⟩ :=
    mergeOver_around hmerge hs hl Store.fits_mapping_nil hlayer hupper
  obtain ⟨hgrows₂, ht₂, hnextFits⟩ := hlaid.sound ht₁ hunder
    ((hs.fits_entries hupper).mono hgrows₁.size_le)
  have hgrows₁₂ := hgrows₁.trans hgrows₂
  have hheld := hl.mono hgrows₁₂.size_le
  have hafter : ∀ x ∈ after, l.itemAt? t₂ path x = .none := by
    intro x hx
    rw [itemAt?_of_growsTo hgrows₁₂ hs hl]
    exact habove x ((mem_after_iff hall).mp hx)
  -- the layers above leave the section and all behind it as it is
  obtain ⟨-, hsilent⟩ := mergeOver_of_none hrest ht₂ hheld hnextFits hpath hafter hwNull hw
  have hkept := mergeOver_of_silent hrest ht₂ hheld hnextFits hlonger
    fun x hx => (hsilent x hx).append hpath [key]
  rw [hkey] at hkept
  rw [hkept]
  rcases look_of_around hbelow hs hl hlayer hupper hlaid hlonger hthere with
    hsame | ⟨hfresh, hmapping, lower, hlower, hunderneath⟩
  · exact .inl hsame
  · have hsorted : Source.all.Pairwise fun a b => a.rank < b.rank := by decide
    rw [hall, List.pairwise_append] at hsorted
    have hrank := hsorted.2.2 lower hlower source List.mem_cons_self
    exact .inr ⟨hfresh, hmapping, lower, hrank, hunderneath⟩

end Layers

end Winnow
