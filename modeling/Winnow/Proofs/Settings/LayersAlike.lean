/-
Winnow/Proofs/Settings/LayersAlike.lean

Layers that are the same but for the order of keys.

Two rows of layers, each in a store of its own, are alike when every source gives
the same on both sides but for the order of keys (`Layers.Alike`).  Looking up then
finds the same, from the same source (`Alike.find?`).  Merging fails on both sides,
or what comes of it is alike again (`mergeOver_alike`, `Alike.merged`); for this all
layers but one must have texts for keys, because other keys may be the same without
being equal.
-/
import Winnow.Proofs.Settings.Merged
import Winnow.Proofs.Store.MergingAlike

namespace Winnow

namespace Layers

open Store (AlikeEntries SameOption TextKeyed)

variable {l l' : Layers} {s t s' t' : Store} {entries entries' : List (Value × Item)}
  {source : Source} {sources : List Source}

/-- What the sources give is the same but for the order of keys. -/
def Alike (l : Layers) (s : Store) (l' : Layers) (s' : Store) : Prop :=
  ∀ source, s.SameOption s' (l source) (l' source)

theorem Alike.mono (h : l.Alike s l' s') (hs : s.GrowsTo t) (hs' : s'.GrowsTo t') :
    l.Alike t l' t' := fun source => (h source).mono hs hs'

/-! ### Looking up -/

/-- Two settings that have been looked up are both missing, or the same but for the
order of keys and from the same source. -/
abbrev SameFinding (s s' : Store) : Option (Source × Item) → Option (Source × Item) → Prop :=
  Option.Rel fun x y => x.1 = y.1 ∧ s.Rearranged s' x.2 y.2

theorem eq_of_sameFinding_scalar {found : Option (Source × Item)} {x : Scalar}
    (h : SameFinding s s' found (some (source, .scalar x))) : found = some (source, .scalar x) := by
  cases h with
  | @some f _ hsame =>
    obtain ⟨hsource, hitem⟩ := hsame
    exact congrArg some (Prod.ext hsource hitem.scalar_right)

theorem Alike.at? (h : l.Alike s l' s') (hs : s.Sound) (hs' : s'.Sound) (path : List String)
    (source : Source) : s.SameOption s' (l.at? s path source) (l'.at? s' path source) := by
  -- the two options are taken apart together: both are missing, or both are there
  have hlayer := h source
  unfold Layers.at?
  generalize l source = x at hlayer ⊢
  generalize l' source = y at hlayer ⊢
  cases hlayer with
  | none => exact .none
  | @some layer layer' halike =>
    have hitem := halike.find? hs hs' path
    simp only [bind, Option.bind_some]
    generalize s.find? layer path = v at hitem ⊢
    generalize s'.find? layer' path = w at hitem ⊢
    cases hitem with
    | none => exact .none
    | @some i j hij =>
      rw [Option.bind_some, Option.bind_some, hij.isNull_eq]
      split
      · exact .none
      · exact .some hij

/-- **Looking up** finds the same on both sides. -/
theorem Alike.find? (h : l.Alike s l' s') (hs : s.Sound) (hs' : s'.Sound) (path : List String) :
    SameFinding s s' (l.find? s path) (l'.find? s' path) := by
  unfold Layers.find?
  induction Source.all.reverse with
  | nil => exact .none
  | cons source rest ih =>
    have hfirst := h.at? hs hs' path source
    rw [List.findSome?_cons, List.findSome?_cons]
    generalize l.at? s path source = v at hfirst ⊢
    generalize l'.at? s' path source = w at hfirst ⊢
    cases hfirst with
    | none => exact ih
    | some hij => exact .some ⟨rfl, hij⟩

/-! ### Merging -/

/-- The layer of a source, where it is a mapping, has texts for keys throughout. -/
def TextAt (l : Layers) (s : Store) (source : Source) : Prop :=
  ∀ layer upper, l source = some layer → s.entries? layer = some upper → s.TextKeyed upper

theorem TextAt.mono (h : l.TextAt s source) (hgrows : s.GrowsTo t) (hs : s.Sound)
    (hl : l.Held s) : l.TextAt t source := by
  intro layer upper hlayer hupper
  rw [hgrows.entries?_eq (hl source layer hlayer)] at hupper
  exact (h layer upper hlayer hupper).mono hgrows hs (hs.fits_entries hupper)

/-- Layers that are held by a sound store, and are mappings. -/
structure Ready (l : Layers) (s : Store) : Prop where
  sound : s.Sound
  held : l.Held s
  mappings : ∀ source layer, l source = some layer → (s.entries? layer).isSome = true

theorem Ready.mono (h : l.Ready s) (hgrows : s.GrowsTo t) (ht : t.Sound) : l.Ready t := by
  refine ⟨ht, h.held.mono hgrows.size_le, fun source layer hlayer => ?_⟩
  rw [hgrows.entries?_eq (h.held source layer hlayer)]
  exact h.mappings source layer hlayer

/-- The layers that are still to be laid over entries have texts for keys, those of one
source excepted; and until these are laid over them, so have the entries. -/
structure Keyed (l : Layers) (s : Store) (entries : List (Value × Item)) (odd : Source)
    (sources : List Source) : Prop where
  texts : ∀ source ∈ sources, source ≠ odd → l.TextAt s source
  entries : s.TextKeyed entries ∨ odd ∉ sources

namespace Keyed

variable {odd : Source} {layer : Item} {upper next : List (Value × Item)}

theorem skip (h : l.Keyed s entries odd (source :: sources)) : l.Keyed s entries odd sources :=
  ⟨fun other hother => h.texts other (List.mem_cons_of_mem _ hother),
    h.entries.imp_right fun hodd hmem => hodd (List.mem_cons_of_mem _ hmem)⟩

theorem text (h : l.Keyed s entries odd (source :: sources)) (hlayer : l source = some layer)
    (hupper : s.entries? layer = some upper) (hne : source ≠ odd) : s.TextKeyed upper :=
  h.texts source List.mem_cons_self hne layer upper hlayer hupper

/-- The next layer or the entries have texts for keys. -/
theorem oneTextKeyed (h : l.Keyed s entries odd (source :: sources))
    (hlayer : l source = some layer) (hupper : s.entries? layer = some upper) :
    s.OneTextKeyed entries upper := by
  rcases h.entries with htext | hodd
  · exact .inl htext
  · exact .inr (h.text hlayer hupper fun heq => hodd (heq ▸ List.mem_cons_self))

/-- Once the next layer is laid over the entries. -/
theorem laid (h : l.Keyed s entries odd (source :: sources)) (hl : l.Ready s)
    (hfits : s.Fits (.mapping entries)) (hnotMem : source ∉ sources)
    (hlayer : l source = some layer) (hupper : s.entries? layer = some upper)
    (hlaid : Store.Laid s entries upper t next) : l.Keyed t next odd sources := by
  have hupperFits := hl.sound.fits_entries hupper
  have hgrows := (hlaid.sound hl.sound hfits hupperFits).1
  refine ⟨fun other hother hne => ?_, ?_⟩
  · exact (h.skip.texts other hother hne).mono hgrows hl.sound hl.held
  · by_cases hsource : source = odd
    · exact .inr (hsource ▸ hnotMem)
    · refine h.skip.entries.imp_left fun htext => ?_
      exact htext.laid (h.text hlayer hupper hsource) hlaid hl.sound hfits hupperFits

end Keyed

/-- Layers with texts for keys are laid over one another, with at most one among them
that has other keys: on both sides this fails for depth, or what comes of it is
alike. -/
theorem mergeOver_alike [Stack] {odd : Source} (hnodup : sources.Nodup) (hl : l.Ready s)
    (hl' : l'.Ready s') (halike : l.Alike s l' s') (hfits : s.Fits (.mapping entries))
    (hfits' : s'.Fits (.mapping entries')) (hentries : s.AlikeEntries s' entries entries')
    (hkeyed : l.Keyed s entries odd sources) (hkeyed' : l'.Keyed s' entries' odd sources) :
    (∃ t t', l.mergeOver sources entries s = (.error .tooDeep, t) ∧
      l'.mergeOver sources entries' s' = (.error .tooDeep, t')) ∨
    ∃ merged t merged' t', l.mergeOver sources entries s = (.ok merged, t) ∧
      l'.mergeOver sources entries' s' = (.ok merged', t') ∧ t.AlikeEntries t' merged merged' := by
  -- the invariant says which of the two sides has texts for keys at each layer
  induction sources generalizing entries entries' s s' with
  | nil => exact .inr ⟨entries, s, entries', s', rfl, rfl, hentries⟩
  | cons source rest ih =>
    obtain ⟨hnotMem, hrestNodup⟩ := List.nodup_cons.mp hnodup
    have hboth := halike source
    rw [mergeOver, mergeOver]
    cases hlayer : l source with
    | none =>
      have hlayer' : l' source = Option.none := Store.eq_none_of_sameOption hboth hlayer
      rw [hlayer']
      exact ih hrestNodup hl hl' halike hfits hfits' hentries hkeyed.skip hkeyed'.skip
    | some layer =>
      obtain ⟨layer', hlayer', hrearranged⟩ := Store.exists_of_sameOption hboth hlayer
      obtain ⟨upper, hupper⟩ := Option.isSome_iff_exists.mp (hl.mappings source layer hlayer)
      obtain ⟨upper', hupper', hupperAlike⟩ := hrearranged.exists_entries hupper
      have hupperFits := hl.sound.fits_entries hupper
      have hupperFits' := hl'.sound.fits_entries hupper'
      have hinput : Store.AlikeInputs s entries upper s' entries' upper' :=
        ⟨⟨hl.sound, hfits, hupperFits, hkeyed.oneTextKeyed hlayer hupper⟩,
          ⟨hl'.sound, hfits', hupperFits', hkeyed'.oneTextKeyed hlayer' hupper'⟩,
          hentries, hupperAlike⟩
      simp only [hlayer', hupper, hupper']
      -- the two merges succeed or fail together
      rcases Store.merge_alike hinput with ⟨hnone, hnone'⟩ |
        ⟨next, t, next', t', hmerge, hmerge', hlaid, hlaid', hnext⟩
      · rw [hnone, hnone']
        exact .inl ⟨s, s', rfl, rfl⟩
      · obtain ⟨hgrows, ht, hnextFits⟩ := hlaid.sound hl.sound hfits hupperFits
        obtain ⟨hgrows', ht', hnextFits'⟩ := hlaid'.sound hl'.sound hfits' hupperFits'
        rw [hmerge, hmerge']
        exact ih hrestNodup (hl.mono hgrows ht) (hl'.mono hgrows' ht') (halike.mono hgrows hgrows')
          hnextFits hnextFits' hnext (hkeyed.laid hl hfits hnotMem hlayer hupper hlaid)
          (hkeyed'.laid hl' hfits' hnotMem hlayer' hupper' hlaid')

/-- **Merging** layers that are alike fails on both sides, or what comes of it is the
same but for the order of keys. -/
theorem Alike.merged [Stack] {odd : Source} (halike : l.Alike s l' s') (hl : l.Ready s)
    (hl' : l'.Ready s')
    (htexts : ∀ source, source ≠ odd → l.TextAt s source ∧ l'.TextAt s' source) :
    (∃ fault t t', l.merged s = (.error fault, t) ∧ l'.merged s' = (.error fault, t')) ∨
    ∃ all t all' t', l.merged s = (.ok all, t) ∧ l'.merged s' = (.ok all', t') ∧
      t.Rearranged t' all all' := by
  have hnodup : Source.all.Nodup := by decide
  have hkeyed : l.Keyed s [] odd Source.all :=
    ⟨fun source _ hne => (htexts source hne).1, .inl (Store.textKeyed_nil s)⟩
  have hkeyed' : l'.Keyed s' [] odd Source.all :=
    ⟨fun source _ hne => (htexts source hne).2, .inl (Store.textKeyed_nil s')⟩
  unfold Layers.merged
  rcases mergeOver_alike hnodup hl hl' halike Store.fits_mapping_nil Store.fits_mapping_nil
    ⟨nofun, nofun⟩ hkeyed hkeyed' with ⟨t, t', hfails, hfails'⟩ |
    ⟨merged, t, merged', t', hok, hok', hentries⟩
  · rw [hfails, hfails']
    exact .inl ⟨.tooDeep, t, t', rfl, rfl⟩
  · rw [hok, hok']
    refine .inr ⟨_, _, _, _, rfl, rfl, ?_⟩
    have hgrown := hentries.mono (Store.growsTo_add t (.mapping merged))
      (Store.growsTo_add t' (.mapping merged'))
    exact hgrown.rearranged Store.entries?_add Store.entries?_add

end Layers

end Winnow
