/-
Winnow/Proofs/Settings/Layers.lean

Layers of settings: looking up, and merging from the lowest to the highest.

`Layers.find?` goes through the sources from the highest down and stops at the
first that has a value (`find?_eq_some_iff`).  `Layers.mergeOver` goes through
them from the lowest up and lays each layer over what there is
(`mergeOver_cons`).  What the merged entries have under a path can be told from
what the single layers say about it:

* a leaf comes from the highest layer that has something
  (`mergeOver_of_leaf`);
* a leaf stays exactly as long as every layer above is silent about its path
  (`mergeOver_eq_some_iff`).

Merging succeeds where the layers are mappings that nest within the limit
(`exists_mergeOver`), and with mappings for layers it fails only for depth
(`mergeOver_error`).
-/
import Winnow.Proofs.Store.Merging
import Winnow.Settings.Layers

namespace Winnow

namespace Layers

open Store (Laid)

variable {l : Layers} {s t : Store} {entries merged : List (Value × Item)}
  {path : List String} {v : Item} {source : Source} {sources : List Source}

/-! ### What a layer has -/

/-- The layers are held by a store. -/
def Held (l : Layers) (s : Store) : Prop := ∀ source i, l source = some i → s.Holds i

/-- What the layer of a source has under a path, no value included. -/
def itemAt? (l : Layers) (s : Store) (path : List String) (source : Source) : Option Item :=
  (l source).bind fun layer => s.find? layer path

/-- The layer of a source is silent about a path: what it has under the beginnings
of the path are mappings, and it has nothing under the path itself. -/
def SilentAt (l : Layers) (s : Store) (path : List String) (source : Source) : Prop :=
  ∀ layer, l source = some layer → ∀ before w, before <+: path →
    s.find? layer before = some w → before ≠ path ∧ (s.entries? w).isSome = true

theorem Held.mono (h : s.size ≤ t.size) (hl : l.Held s) : l.Held t :=
  fun source i hi => (hl source i hi).mono h

theorem itemAt?_of_growsTo (h : s.GrowsTo t) (hs : s.Sound) (hl : l.Held s) :
    l.itemAt? t path source = l.itemAt? s path source := by
  unfold itemAt?
  cases hi : l source with
  | none => rfl
  | some layer => exact h.find?_eq hs (hl source layer hi) path

theorem silentAt_of_growsTo (h : s.GrowsTo t) (hs : s.Sound) (hl : l.Held s) :
    l.SilentAt t path source ↔ l.SilentAt s path source := by
  refine forall_congr' fun layer => forall_congr' fun hi => forall_congr' fun before =>
    forall_congr' fun w => forall_congr' fun _ => ?_
  rw [h.find?_eq hs (hl source layer hi)]
  refine forall_congr' fun hw => ?_
  rw [h.entries?_eq (hs.holds_of_find? (hl source layer hi) hw)]

theorem silentAt_iff {layer : Item} {upper : List (Value × Item)} (hpath : path ≠ [])
    (hlayer : l source = some layer) (hupper : s.entries? layer = some upper) :
    l.SilentAt s path source ↔ s.Silent upper path := by
  rw [Store.silent_iff hupper hpath]
  constructor
  · exact fun h => h layer hlayer
  · intro h other hother
    rw [hlayer] at hother
    cases hother
    exact h

theorem itemAt?_eq_look {layer : Item} {upper : List (Value × Item)} (hpath : path ≠ [])
    (hlayer : l source = some layer) (hupper : s.entries? layer = some upper) :
    l.itemAt? s path source = s.look upper path := by
  rw [itemAt?, hlayer, Option.bind_some, Store.find?_eq_look hpath, hupper, Option.bind_some]

/-! ### Looking up -/

theorem at?_eq_some_iff :
    l.at? s path source = some v ↔ l.itemAt? s path source = some v ∧ v.isNull = false := by
  unfold Layers.at? itemAt?
  cases hi : l source with
  | none => simp [bind]
  | some layer =>
    cases hfind : s.find? layer path with
    | none => simp [bind, hfind]
    | some w =>
      cases hw : w.isNull <;> simp [bind, hfind, hw]
      · rintro rfl
        exact hw
      · rintro rfl
        exact hw

/-- The sources behind a source in the row of all are those that take precedence
over it. -/
theorem mem_after_iff {before after : List Source} {higher : Source}
    (h : Source.all = before ++ source :: after) :
    higher ∈ after ↔ source.rank < higher.rank := by
  have hsorted : Source.all.Pairwise fun a b => a.rank < b.rank := by decide
  rw [h, List.pairwise_append, List.pairwise_cons] at hsorted
  obtain ⟨-, ⟨hafter, -⟩, hbefore⟩ := hsorted
  constructor
  · exact fun hmem => hafter higher hmem
  · intro hrank
    have hmem : higher ∈ Source.all := by cases higher <;> decide
    rw [h, List.mem_append, List.mem_cons] at hmem
    rcases hmem with hmem | rfl | hmem
    · have hlt := hbefore higher hmem source List.mem_cons_self
      omega
    · exact absurd hrank (Nat.lt_irrefl _)
    · exact hmem

/-- **Looking a setting up** answers the highest source that has a value under
the path. -/
theorem find?_eq_some_iff :
    l.find? s path = some (source, v) ↔ l.at? s path source = some v ∧
      ∀ higher, source.rank < higher.rank → l.at? s path higher = .none := by
  unfold Layers.find?
  rw [List.findSome?_eq_some_iff]
  constructor
  · rintro ⟨above, found, below, hall, hfound, habove⟩
    obtain ⟨w, hw, hpair⟩ := Option.map_eq_some_iff.mp hfound
    cases hpair
    have hall' : Source.all = below.reverse ++ source :: above.reverse := by
      have hrev := congrArg List.reverse hall
      simpa using hrev
    refine ⟨hw, fun higher hrank => ?_⟩
    have hmem := List.mem_reverse.mp ((mem_after_iff hall').mpr hrank)
    exact Option.map_eq_none_iff.mp (habove higher hmem)
  · rintro ⟨hfound, habove⟩
    have hmem : source ∈ Source.all := by cases source <;> decide
    obtain ⟨before, after, hall⟩ := List.append_of_mem hmem
    refine ⟨after.reverse, source, before.reverse, by rw [hall]; simp, by rw [hfound]; rfl, ?_⟩
    intro higher hhigher
    rw [habove higher ((mem_after_iff hall).mp (List.mem_reverse.mp hhigher))]
    rfl

theorem at?_congr {l' : Layers} (h : l'.itemAt? t path source = l.itemAt? s path source) :
    l'.at? t path source = l.at? s path source := by
  refine Option.ext fun v => ?_
  rw [at?_eq_some_iff, at?_eq_some_iff, h]

/-- Looking up goes by what the sources give. -/
theorem find?_congr {l' : Layers} (h : ∀ source, l'.at? t path source = l.at? s path source) :
    l'.find? t path = l.find? s path := by
  unfold Layers.find?
  simp only [h]

/-- In a store that has grown the same is found. -/
theorem find?_of_growsTo (h : s.GrowsTo t) (hs : s.Sound) (hl : l.Held s) (path : List String) :
    l.find? t path = l.find? s path :=
  find?_congr fun _ => at?_congr (itemAt?_of_growsTo h hs hl)

/-! ### Merging layer by layer -/

theorem mergeOver_cons [Stack]
    (h : l.mergeOver (source :: sources) entries s = (.ok merged, t)) :
    (l source = Option.none ∧ l.mergeOver sources entries s = (.ok merged, t)) ∨
    ∃ layer upper next u, l source = some layer ∧ s.entries? layer = some upper ∧
      Laid s entries upper u next ∧ l.mergeOver sources next u = (.ok merged, t) := by
  rw [mergeOver] at h
  split at h
  · exact .inl ⟨‹_›, h⟩
  · rename_i layer hlayer
    split at h
    · cases h
    · rename_i upper hupper
      split at h
      · cases h
      · rename_i next u hmerge
        exact .inr ⟨layer, upper, next, u, hlayer, hupper, Store.laid_of_mergeTo hmerge, h⟩

theorem mergeOver_append [Stack] {first second : List Source}
    (h : l.mergeOver (first ++ second) entries s = (.ok merged, t)) :
    ∃ next u, l.mergeOver first entries s = (.ok next, u) ∧
      l.mergeOver second next u = (.ok merged, t) := by
  induction first generalizing entries s with
  | nil => exact ⟨entries, s, rfl, h⟩
  | cons source rest ih =>
    rw [List.cons_append, mergeOver] at h
    rw [mergeOver]
    cases hlayer : l source with
    | none =>
      simp only [hlayer] at h ⊢
      exact ih h
    | some layer =>
      simp only [hlayer] at h ⊢
      cases hupper : s.entries? layer with
      | none =>
        rw [hupper] at h
        cases h
      | some upper =>
        simp only [hupper] at h ⊢
        cases hmerge : Store.merge entries upper s with
        | none =>
          rw [hmerge] at h
          cases h
        | some result =>
          simp only [hmerge] at h ⊢
          exact ih h

/-- Merging layers only adds cells, and all of them fit. -/
theorem mergeOver_sound [Stack] {outcome : Except LayerFault (List (Value × Item))}
    (h : l.mergeOver sources entries s = (outcome, t)) (hs : s.Sound)
    (hentries : s.Fits (.mapping entries)) :
    s.GrowsTo t ∧ t.Sound ∧ ∀ merged, outcome = .ok merged → t.Fits (.mapping merged) := by
  induction sources generalizing entries s with
  | nil =>
    cases h
    refine ⟨.refl _, hs, fun merged hmerged => ?_⟩
    cases hmerged
    exact hentries
  | cons source rest ih =>
    rw [mergeOver] at h
    split at h
    · exact ih h hs hentries
    · split at h
      · cases h
        exact ⟨.refl _, hs, nofun⟩
      · rename_i upper hupper
        split at h
        · cases h
          exact ⟨.refl _, hs, nofun⟩
        · rename_i next u hmerge
          obtain ⟨hgrows, hu, hnext⟩ :=
            (Store.laid_of_mergeTo hmerge).sound hs hentries (hs.fits_entries hupper)
          obtain ⟨hgrows', ht⟩ := ih h hu hnext
          exact ⟨hgrows.trans hgrows', ht⟩

/-! ### Leaves of the merged entries -/

/-- A leaf of the merged entries was there before, with all layers saying nothing
under its path, or it comes from the last layer that says something. -/
theorem mergeOver_of_leaf [Stack] (h : l.mergeOver sources entries s = (.ok merged, t))
    (hs : s.Sound) (hl : l.Held s) (hentries : s.Fits (.mapping entries)) (hpath : path ≠ [])
    (hv : t.look merged path = some v) (hleaf : t.entries? v = .none) :
    (s.look entries path = some v ∧ ∀ source ∈ sources, l.itemAt? s path source = .none) ∨
    ∃ before source after, sources = before ++ source :: after ∧
      l.itemAt? s path source = some v ∧ ∀ higher ∈ after, l.itemAt? s path higher = .none := by
  induction sources generalizing entries s with
  | nil =>
    cases h
    exact .inl ⟨hv, nofun⟩
  | cons source rest ih =>
    rcases mergeOver_cons h with ⟨hlayer, h⟩ | ⟨layer, upper, next, u, hlayer, hupper, hlaid, h⟩
    · have hnone : l.itemAt? s path source = .none := by rw [itemAt?, hlayer]; rfl
      rcases ih h hs hl hentries with ⟨hlook, hitem⟩ | ⟨before, found, after, hrest, hfound⟩
      · exact .inl ⟨hlook, List.forall_mem_cons.mpr ⟨hnone, hitem⟩⟩
      · exact .inr ⟨source :: before, found, after, by rw [hrest]; rfl, hfound⟩
    · have hupperFits := hs.fits_entries hupper
      obtain ⟨hgrows, hu, hnext⟩ := hlaid.sound hs hentries hupperFits
      have hsame (x : Source) : l.itemAt? u path x = l.itemAt? s path x :=
        itemAt?_of_growsTo hgrows hs hl
      have hitem := itemAt?_eq_look hpath hlayer hupper
      -- either the leaf is there after this layer, or a later layer brings it
      rcases ih h hu (hl.mono hgrows.size_le) hnext with
        ⟨hlook, hrest⟩ | ⟨before, found, after, hsplit, hfound, hrest⟩
      · simp only [hsame] at hrest
        cases hlaid.path hs hentries hupperFits hpath with
        | silent hsilent hkept =>
          have hnone := hitem.trans (Store.look_eq_none_of_silent hsilent)
          exact .inl ⟨hkept.symm.trans hlook, List.forall_mem_cons.mpr ⟨hnone, hrest⟩⟩
        | replaced hw _ hthere =>
          rw [hthere] at hlook
          cases hlook
          exact .inr ⟨[], source, rest, rfl, hitem.trans hw, hrest⟩
        | nested _ _ _ _ _ _ _ hthere hfresh =>
          -- what both have is a mapping, so it is no leaf
          rw [hthere] at hlook
          cases hlook
          have hgrows' := (mergeOver_sound h hu hnext).1
          rw [hgrows'.entries?_eq (hnext.holds_of_look hu hthere), hfresh] at hleaf
          cases hleaf
        | blocked _ _ hthere =>
          rw [hthere] at hlook
          cases hlook
      · simp only [hsame] at hfound hrest
        exact .inr ⟨source :: before, found, after, by rw [hsplit]; rfl, hfound, hrest⟩

/-- Merging with the layer of one source in the middle: what is there before it, what
it is laid over that, and what is done with the result. -/
theorem mergeOver_around [Stack] {before after : List Source} {layer : Item}
    {upper : List (Value × Item)}
    (h : l.mergeOver (before ++ source :: after) entries s = (.ok merged, t)) (hs : s.Sound)
    (hl : l.Held s) (hentries : s.Fits (.mapping entries)) (hlayer : l source = some layer)
    (hupper : s.entries? layer = some upper) :
    ∃ under t₁ next t₂, l.mergeOver before entries s = (.ok under, t₁) ∧ s.GrowsTo t₁ ∧
      t₁.Sound ∧ t₁.Fits (.mapping under) ∧ Laid t₁ under upper t₂ next ∧
      l.mergeOver after next t₂ = (.ok merged, t) := by
  obtain ⟨under, t₁, hbelow, h⟩ := mergeOver_append h
  obtain ⟨hgrows, ht₁, hunder⟩ := mergeOver_sound hbelow hs hentries
  rcases mergeOver_cons h with ⟨hnone, -⟩ | ⟨layer', upper', next, t₂, hsome, hupper', hlaid, h⟩
  · rw [hlayer] at hnone
    cases hnone
  · cases hlayer.symm.trans hsome
    rw [hgrows.entries?_eq (hl source layer hlayer)] at hupper'
    cases hupper.symm.trans hupper'
    exact ⟨under, t₁, next, t₂, hbelow, hgrows, ht₁, hunder under rfl, hlaid, h⟩

/-- Just after the layer that has a leaf under a path, the leaf is there. -/
theorem exists_look_after [Stack] {before after : List Source}
    (h : l.mergeOver (before ++ source :: after) entries s = (.ok merged, t)) (hs : s.Sound)
    (hl : l.Held s) (hentries : s.Fits (.mapping entries)) (hpath : path ≠ [])
    (hitem : l.itemAt? s path source = some v) (hleaf : s.entries? v = .none) :
    ∃ next u, s.GrowsTo u ∧ u.Sound ∧ u.Fits (.mapping next) ∧ u.look next path = some v ∧
      l.mergeOver after next u = (.ok merged, t) := by
  obtain ⟨layer, hlayer, hfind⟩ := Option.bind_eq_some_iff.mp hitem
  have hheld := hl source layer hlayer
  have hlook := hfind
  rw [Store.find?_eq_look hpath] at hlook
  obtain ⟨upper, hupper, hlook⟩ := Option.bind_eq_some_iff.mp hlook
  have hupperFits := hs.fits_entries hupper
  obtain ⟨under, t₁, next, t₂, -, hgrows₁, ht₁, hunderFits, hlaid, hrest⟩ :=
    mergeOver_around h hs hl hentries hlayer hupper
  have hupperFits₁ := hupperFits.mono hgrows₁.size_le
  obtain ⟨hgrows₂, ht₂, hnextFits⟩ := hlaid.sound ht₁ hunderFits hupperFits₁
  refine ⟨next, t₂, hgrows₁.trans hgrows₂, ht₂, hnextFits, ?_, hrest⟩
  rw [← hgrows₁.look_eq hs hupperFits] at hlook
  apply hlaid.look_of_leaf ht₁ hunderFits hupperFits₁ hpath hlook
  rw [hgrows₁.entries?_eq (hs.holds_of_find? hheld hfind), hleaf]

/-- A value that no layer has is not brought back by layers that have nothing or
no value under its path. -/
theorem mergeOver_ne [Stack] (h : l.mergeOver sources entries s = (.ok merged, t)) (hs : s.Sound)
    (hl : l.Held s) (hentries : s.Fits (.mapping entries)) (hpath : path ≠ [])
    (hnull : v.isNull = false)
    (hsources : ∀ source ∈ sources, ∀ w, l.itemAt? s path source = some w → w.isNull = true)
    (hne : s.look entries path ≠ some v) : t.look merged path ≠ some v := by
  induction sources generalizing entries s with
  | nil =>
    cases h
    exact hne
  | cons source rest ih =>
    obtain ⟨hsource, hrest⟩ := List.forall_mem_cons.mp hsources
    rcases mergeOver_cons h with ⟨-, h⟩ | ⟨layer, upper, next, u, hlayer, hupper, hlaid, h⟩
    · exact ih h hs hl hentries hrest hne
    · have hupperFits := hs.fits_entries hupper
      obtain ⟨hgrows, hu, hnext⟩ := hlaid.sound hs hentries hupperFits
      have hitem := itemAt?_eq_look hpath hlayer hupper
      apply ih h hu (hl.mono hgrows.size_le) hnext
      · intro x hx
        rw [itemAt?_of_growsTo hgrows hs hl]
        exact hrest x hx
      · by_cases hsilent : s.Silent upper path
        · rwa [hlaid.look_of_silent hs hentries hupperFits hpath hsilent]
        · apply hlaid.look_ne_of_not_silent hs hentries hupperFits hpath hsilent hnull
          exact fun w hw => hsource w (hitem.trans hw)

/-- A leaf that is there stays when all layers say nothing or no value under its
path, if and only if every one of them is silent about it. -/
theorem mergeOver_eq_some_iff [Stack] (h : l.mergeOver sources entries s = (.ok merged, t))
    (hs : s.Sound) (hl : l.Held s) (hentries : s.Fits (.mapping entries)) (hpath : path ≠ [])
    (hnull : v.isNull = false)
    (hsources : ∀ source ∈ sources, ∀ w, l.itemAt? s path source = some w → w.isNull = true)
    (hv : s.look entries path = some v) :
    t.look merged path = some v ↔ ∀ source ∈ sources, l.SilentAt s path source := by
  induction sources generalizing entries s with
  | nil =>
    cases h
    exact ⟨fun _ => nofun, fun _ => hv⟩
  | cons source rest ih =>
    obtain ⟨hsource, hrest⟩ := List.forall_mem_cons.mp hsources
    rw [List.forall_mem_cons]
    rcases mergeOver_cons h with ⟨hlayer, h⟩ | ⟨layer, upper, next, u, hlayer, hupper, hlaid, h⟩
    · have hsilent : l.SilentAt s path source := by
        intro layer hsome
        rw [hlayer] at hsome
        cases hsome
      rw [ih h hs hl hentries hrest hv]
      exact ⟨fun hall => ⟨hsilent, hall⟩, fun hall => hall.2⟩
    · have hupperFits := hs.fits_entries hupper
      obtain ⟨hgrows, hu, hnext⟩ := hlaid.sound hs hentries hupperFits
      have hheld := hl.mono hgrows.size_le
      have hrest' : ∀ x ∈ rest, ∀ w, l.itemAt? u path x = some w → w.isNull = true := by
        intro x hx
        rw [itemAt?_of_growsTo hgrows hs hl]
        exact hrest x hx
      rw [silentAt_iff hpath hlayer hupper]
      -- once the leaf is lost, no layer above can bring it back
      by_cases hsilent : s.Silent upper path
      · have hkept : u.look next path = some v := by
          rw [← hv]
          exact hlaid.look_of_silent hs hentries hupperFits hpath hsilent
        rw [ih h hu hheld hnext hrest' hkept]
        simp only [silentAt_of_growsTo hgrows hs hl]
        exact ⟨fun hall => ⟨hsilent, hall⟩, fun hall => hall.2⟩
      · have hitem := itemAt?_eq_look hpath hlayer hupper
        have hchanged : u.look next path ≠ some v :=
          hlaid.look_ne_of_not_silent hs hentries hupperFits hpath hsilent hnull
            fun w hw => hsource w (hitem.trans hw)
        have hlost := mergeOver_ne h hu hheld hnext hpath hnull hrest' hchanged
        exact ⟨fun hlook => absurd hlook hlost, fun hall => absurd hall.1 hsilent⟩

/-! ### Whether layers merge -/

/-- With mappings for layers, merging fails for depth only. -/
theorem mergeOver_error [Stack] {fault : LayerFault}
    (h : l.mergeOver sources entries s = (.error fault, t)) (hs : s.Sound) (hl : l.Held s)
    (hentries : s.Fits (.mapping entries))
    (hmappings : ∀ source ∈ sources, ∀ layer, l source = some layer →
      (s.entries? layer).isSome = true) : fault = .tooDeep := by
  induction sources generalizing entries s with
  | nil => cases h
  | cons source rest ih =>
    obtain ⟨hsource, hrest⟩ := List.forall_mem_cons.mp hmappings
    rw [mergeOver] at h
    cases hlayer : l source with
    | none =>
      simp only [hlayer] at h
      exact ih h hs hl hentries hrest
    | some layer =>
      obtain ⟨upper, hupper⟩ := Option.isSome_iff_exists.mp (hsource layer hlayer)
      simp only [hlayer, hupper] at h
      cases hmerge : Store.merge entries upper s with
      | none =>
        rw [hmerge] at h
        cases h
        rfl
      | some result =>
        obtain ⟨next, u⟩ := result
        simp only [hmerge] at h
        obtain ⟨hgrows, hu, hnext⟩ :=
          (Store.laid_of_mergeTo hmerge).sound hs hentries (hs.fits_entries hupper)
        refine ih h hu (hl.mono hgrows.size_le) hnext fun x hx other hother => ?_
        rw [hgrows.entries?_eq (hl x other hother)]
        exact hrest x hx other hother

/-- Merging succeeds where the layers are mappings that nest within the limit. -/
theorem exists_mergeOver [Stack] (hs : s.Sound) (hl : l.Held s)
    (hentries : s.Fits (.mapping entries))
    (hmappings : ∀ source ∈ sources, ∀ layer, l source = some layer →
      (s.entries? layer).isSome = true ∧ s.NestsWithin Stack.mappings layer) :
    ∃ merged t, l.mergeOver sources entries s = (.ok merged, t) := by
  induction sources generalizing entries s with
  | nil => exact ⟨entries, s, rfl⟩
  | cons source rest ih =>
    obtain ⟨hsource, hrest⟩ := List.forall_mem_cons.mp hmappings
    rw [mergeOver]
    cases hlayer : l source with
    | none => exact ih hs hl hentries hrest
    | some layer =>
      obtain ⟨hmapping, hnests⟩ := hsource layer hlayer
      obtain ⟨upper, hupper⟩ := Option.isSome_iff_exists.mp hmapping
      have hupperFits := hs.fits_entries hupper
      obtain ⟨next, u, hmerge⟩ : ∃ next u, Store.merge entries upper s = some (next, u) :=
        Store.exists_mergeTo_of_nestsWithin hs hentries hupper hnests
      obtain ⟨hgrows, hu, hnext⟩ := (Store.laid_of_mergeTo hmerge).sound hs hentries hupperFits
      simp only [hupper, hmerge]
      refine ih hu (hl.mono hgrows.size_le) hnext fun x hx other hother => ?_
      rw [hgrows.entries?_eq (hl x other hother)]
      obtain ⟨hsome, hwithin⟩ := hrest x hx other hother
      exact ⟨hsome, hgrows.nestsWithin hs (hl x other hother) hwithin⟩

end Layers

end Winnow
