/-
Winnow/Proofs/Store/Merging.lean

Laying mappings over mappings.

`Laid s base upper t merged` says that laying the entries `upper` over `base` in
the store `s` gives `merged` in the store `t`: entry by entry, a mapping over a
mapping is laid over it in a new cell, and everything else takes the place of
what was there.  It is what `mergeTo` does at any depth (`laid_of_mergeTo`),
without the depth.

Main results, for entries in a sound store:

* `Laid.key` : what is found under one key;
* `Laid.path` : what is found under a path, by what the upper entries have there;
* `exists_mergeTo` : merging succeeds when the upper entries nest no deeper than
  the depth.
-/
import Winnow.Proofs.Store.Sound

namespace Winnow

namespace Store

open Entries (DistinctKeys)

variable {s t u : Store} {base upper merged : List (Value × Item)}

/-! ### Merging without a depth -/

/-- Laying entries over entries, one after another. -/
inductive Laid : Store → List (Value × Item) → List (Value × Item) → Store →
    List (Value × Item) → Prop
  | done (s : Store) (base : List (Value × Item)) : Laid s base [] s base
  | replace {s t : Store} {base rest merged : List (Value × Item)} {key : Value} {value : Item} :
      ((Entries.find? key base).bind s.entries? = none ∨ s.entries? value = none) →
      Laid s (Entries.insert key value base) rest t merged →
      Laid s base ((key, value) :: rest) t merged
  | nest {s t u : Store} {base rest merged under above inner : List (Value × Item)}
      {key : Value} {value : Item} :
      (Entries.find? key base).bind s.entries? = some under → s.entries? value = some above →
      Laid s under above t inner →
      Laid (t.add (.mapping inner)).2 (Entries.insert key (t.add (.mapping inner)).1 base)
        rest u merged →
      Laid s base ((key, value) :: rest) u merged

/-- What merging does with the first of the upper entries. -/
theorem mergeTo_cons_cases {depth : Nat} {key : Value} {value : Item}
    {rest : List (Value × Item)}
    (h : mergeTo (depth + 1) base ((key, value) :: rest) s = some (merged, t)) :
    (((Entries.find? key base).bind s.entries? = none ∨ s.entries? value = none) ∧
      mergeTo (depth + 1) (Entries.insert key value base) rest s = some (merged, t)) ∨
    ∃ under above inner u, (Entries.find? key base).bind s.entries? = some under ∧
      s.entries? value = some above ∧ mergeTo depth under above s = some (inner, u) ∧
      mergeTo (depth + 1) (Entries.insert key (u.add (.mapping inner)).1 base) rest
        (u.add (.mapping inner)).2 = some (merged, t) := by
  rw [mergeTo, List.foldlM_cons] at h
  obtain ⟨⟨entries, s₁⟩, hstep, h⟩ := Option.bind_eq_some_iff.mp h
  dsimp only at hstep
  split at hstep
  · rename_i under above hunder habove
    obtain ⟨⟨inner, u⟩, hinner, hstep⟩ := Option.bind_eq_some_iff.mp hstep
    cases hstep
    exact .inr ⟨under, above, inner, u, hunder, habove, hinner, h⟩
  · rename_i hnone
    cases hstep
    refine .inl ⟨?_, h⟩
    cases hunder : (Entries.find? key base).bind s.entries? with
    | none => exact .inl rfl
    | some under =>
      cases habove : s.entries? value with
      | none => exact .inr rfl
      | some above => exact absurd habove (hnone under above hunder)

theorem laid_of_mergeTo {depth : Nat} (h : mergeTo depth base upper s = some (merged, t)) :
    Laid s base upper t merged := by
  -- the outer induction is on the levels, the inner one on the entries of a level
  induction depth generalizing s t base upper merged with
  | zero => cases h
  | succ depth ihDepth =>
    induction upper generalizing s base with
    | nil =>
      cases h
      exact .done _ _
    | cons e rest ihRest =>
      rcases mergeTo_cons_cases h with
        ⟨hnone, h⟩ | ⟨under, above, inner, u, hunder, habove, hinner, h⟩
      · exact .replace hnone (ihRest h)
      · exact .nest hunder habove (ihDepth hinner) (ihRest h)

/-! ### Merging keeps stores sound -/

theorem fits_cons {e : Value × Item} {rest : List (Value × Item)}
    (h : s.Fits (.mapping (e :: rest))) : s.Holds e.2 ∧ s.Fits (.mapping rest) := by
  obtain ⟨hholds, hdistinct⟩ := fits_mapping.mp h
  exact ⟨hholds e List.mem_cons_self,
    fits_mapping.mpr ⟨fun f hf => hholds f (List.mem_cons_of_mem _ hf), hdistinct.tail⟩⟩

theorem Sound.fits_under (hs : s.Sound) {key : Value} {under : List (Value × Item)}
    (h : (Entries.find? key base).bind s.entries? = some under) : s.Fits (.mapping under) := by
  obtain ⟨i, -, hi⟩ := Option.bind_eq_some_iff.mp h
  exact hs.fits_entries hi

/-- Merging only adds cells, and all of them fit. -/
theorem Laid.sound (h : Laid s base upper t merged) (hs : s.Sound)
    (hbase : s.Fits (.mapping base)) (hupper : s.Fits (.mapping upper)) :
    s.GrowsTo t ∧ t.Sound ∧ t.Fits (.mapping merged) := by
  induction h with
  | done s base => exact ⟨.refl s, hs, hbase⟩
  | replace _ _ ih =>
    obtain ⟨hvalue, hrest⟩ := fits_cons hupper
    exact ih hs (hbase.insert _ hvalue) hrest
  | @nest s t u base rest merged under above inner key value hunder habove _ _ ihInner ihRest =>
    obtain ⟨-, hrest⟩ := fits_cons hupper
    obtain ⟨hgrows, ht, hinner⟩ := ihInner hs (hs.fits_under hunder) (hs.fits_entries habove)
    have hstep : s.GrowsTo (t.add (.mapping inner)).2 := hgrows.trans (growsTo_add t _)
    have hnext := ihRest (ht.add hinner) ((hbase.mono hstep.size_le).insert key holds_add)
      (hrest.mono hstep.size_le)
    exact ⟨hstep.trans hnext.1, hnext.2⟩

/-! ### One key -/

/-- What is found under a key after merging: what was there, what the upper
entries have, or the two merged. -/
inductive KeyLaid (s : Store) (base upper : List (Value × Item)) (t : Store)
    (merged : List (Value × Item)) (key : String) : Prop
  | kept : Entries.find? (.text key) upper = none →
      Entries.find? (.text key) merged = Entries.find? (.text key) base →
      KeyLaid s base upper t merged key
  | replaced {value : Item} : Entries.find? (.text key) upper = some value →
      ((Entries.find? (.text key) base).bind s.entries? = none ∨ s.entries? value = none) →
      Entries.find? (.text key) merged = some value → KeyLaid s base upper t merged key
  | nested {value fresh : Item} {under above inner : List (Value × Item)} {s₁ s₂ : Store} :
      Entries.find? (.text key) upper = some value →
      (Entries.find? (.text key) base).bind s.entries? = some under →
      s.entries? value = some above → s.GrowsTo s₁ → s₁.Sound → Laid s₁ under above s₂ inner →
      s₂.GrowsTo t → Entries.find? (.text key) merged = some fresh →
      t.entries? fresh = some inner → KeyLaid s base upper t merged key

theorem GrowsTo.bind_entries?_eq (h : s.GrowsTo t) (hbase : s.Fits (.mapping base))
    (key : Value) :
    (Entries.find? key base).bind t.entries? = (Entries.find? key base).bind s.entries? := by
  cases hi : Entries.find? key base with
  | none => rfl
  | some i => exact h.entries?_eq (hbase.holds_of_find? hi)

/-- A key that is not among the upper entries is kept. -/
theorem KeyLaid.eq_of_find?_eq_none {key : String} (h : KeyLaid s base upper t merged key)
    (hnone : Entries.find? (.text key) upper = none) :
    Entries.find? (.text key) merged = Entries.find? (.text key) base := by
  cases h with
  | kept _ hmerged => exact hmerged
  | replaced hfind _ _ =>
    rw [hnone] at hfind
    cases hfind
  | nested hfind _ _ _ _ _ _ _ _ =>
    rw [hnone] at hfind
    cases hfind

/-- Laying an entry under another key does not count for a key. -/
theorem KeyLaid.cons_of_ne {s' : Store} {rest : List (Value × Item)} {key : String} {k : Value}
    {i value : Item} (h : KeyLaid s' (Entries.insert k i base) rest t merged key)
    (hgrows : s.GrowsTo s') (hbase : s.Fits (.mapping base)) (hrest : s.Fits (.mapping rest))
    (hk : k ≠ .text key) : KeyLaid s base ((k, value) :: rest) t merged key := by
  have hhead := (Entries.find?_text_cons k value rest).2 hk
  have hthere : Entries.find? (.text key) (Entries.insert k i base)
      = Entries.find? (.text key) base := Entries.find?_insert_of_ne hk
  cases h with
  | kept hfind hmerged => exact .kept (hhead.trans hfind) (hmerged.trans hthere)
  | replaced hfind hcond hmerged =>
    rw [hthere, hgrows.bind_entries?_eq hbase,
      hgrows.entries?_eq (hrest.holds_of_find? hfind)] at hcond
    exact .replaced (hhead.trans hfind) hcond hmerged
  | nested hfind hunder habove hgrows' hsound hinner hlast hmerged hfresh =>
    rw [hthere, hgrows.bind_entries?_eq hbase] at hunder
    rw [hgrows.entries?_eq (hrest.holds_of_find? hfind)] at habove
    exact .nested (hhead.trans hfind) hunder habove (hgrows.trans hgrows') hsound hinner
      hlast hmerged hfresh

/-- What is found under one key, by induction on the upper entries: only the one
with this key counts, and the keys behind it are others. -/
theorem Laid.key (h : Laid s base upper t merged) (hs : s.Sound)
    (hbase : s.Fits (.mapping base)) (hupper : s.Fits (.mapping upper)) (key : String) :
    KeyLaid s base upper t merged key := by
  induction h with
  | done s base => exact .kept rfl rfl
  | @replace s t base rest merged k value hnone hlaid ih =>
    obtain ⟨hvalue, hrest⟩ := fits_cons hupper
    have hcase := ih hs (hbase.insert k hvalue) hrest
    by_cases hk : k = .text key
    · subst hk
      have hmerged := hcase.eq_of_find?_eq_none (hupper.distinct _ rfl).find?_tail
      rw [Entries.find?_insert_self] at hmerged
      exact .replaced ((Entries.find?_text_cons _ value rest).1 rfl) hnone hmerged
    · exact hcase.cons_of_ne (.refl s) hbase hrest hk
  | @nest s t u base rest merged under above inner k value hunder habove hinner hlaid _ ih =>
    obtain ⟨hvalue, hrest⟩ := fits_cons hupper
    obtain ⟨hgrows, ht, hfits⟩ := hinner.sound hs (hs.fits_under hunder) (hs.fits_entries habove)
    have hstep : s.GrowsTo (t.add (.mapping inner)).2 := hgrows.trans (growsTo_add t _)
    have hbase' := (hbase.mono hstep.size_le).insert k (holds_add (s := t) (c := .mapping inner))
    have hrest' := hrest.mono hstep.size_le
    have hcase := ih (ht.add hfits) hbase' hrest'
    by_cases hk : k = .text key
    · subst hk
      have hlast := (hlaid.sound (ht.add hfits) hbase' hrest').1
      have hmerged := hcase.eq_of_find?_eq_none (hupper.distinct _ rfl).find?_tail
      rw [Entries.find?_insert_self] at hmerged
      refine .nested ((Entries.find?_text_cons _ value rest).1 rfl) hunder habove (.refl s) hs
        hinner ((growsTo_add t _).trans hlast) hmerged ?_
      rw [hlast.entries?_eq holds_add]
      exact entries?_add
    · exact hcase.cons_of_ne hstep hbase hrest hk

/-! ### Paths -/

theorem look_cons_some {entries : List (Value × Item)} {key : String} {i : Item}
    (h : Entries.find? (.text key) entries = some i) (rest : List String) :
    s.look entries (key :: rest) = s.find? i rest := by
  rw [look, h, Option.bind_some]

theorem look_cons_entries {entries inner : List (Value × Item)} {key : String} {i : Item}
    (h : Entries.find? (.text key) entries = some i) (hi : s.entries? i = some inner)
    {rest : List String} (hrest : rest ≠ []) :
    s.look entries (key :: rest) = s.look inner rest := by
  rw [look_cons_some h, find?_eq_look hrest, hi, Option.bind_some]

theorem look_cons_under {entries under : List (Value × Item)} {key : String}
    (h : (Entries.find? (.text key) entries).bind s.entries? = some under)
    {rest : List String} (hrest : rest ≠ []) :
    s.look entries (key :: rest) = s.look under rest := by
  obtain ⟨i, hfind, hi⟩ := Option.bind_eq_some_iff.mp h
  exact look_cons_entries hfind hi hrest

theorem look_cons_eq_none {entries : List (Value × Item)} {key : String}
    (h : (Entries.find? (.text key) entries).bind s.entries? = none)
    {rest : List String} (hrest : rest ≠ []) : s.look entries (key :: rest) = none := by
  rw [look]
  cases hi : Entries.find? (.text key) entries with
  | none => rfl
  | some i =>
    rw [hi, Option.bind_some] at h
    rw [Option.bind_some, find?_eq_look hrest, h]
    rfl

theorem silent_cons_entries {entries inner : List (Value × Item)} {key : String} {i : Item}
    (h : Entries.find? (.text key) entries = some i) (hi : s.entries? i = some inner)
    (rest : List String) : s.Silent entries (key :: rest) ↔ s.Silent inner rest := by
  constructor
  · intro hsilent
    obtain ⟨other, hother, hrest⟩ := hsilent i h
    rw [hi] at hother
    cases hother
    exact hrest
  · intro hrest j hj
    rw [h] at hj
    cases hj
    exact ⟨inner, hi, hrest⟩

/-- What is found under a path after merging.  The four cases exclude one
another. -/
inductive PathLaid (s : Store) (base upper : List (Value × Item)) (t : Store)
    (merged : List (Value × Item)) (path : List String) : Prop
  /-- The upper entries say nothing about the path: what was there stays. -/
  | silent : s.Silent upper path → t.look merged path = s.look base path →
      PathLaid s base upper t merged path
  /-- The upper entries have something under the path that is not merged. -/
  | replaced {v : Item} : s.look upper path = some v →
      ((s.look base path).bind s.entries? = none ∨ s.entries? v = none) →
      t.look merged path = some v → PathLaid s base upper t merged path
  /-- Both have a mapping under the path: the two are merged. -/
  | nested {v fresh : Item} {under above inner : List (Value × Item)} {s₁ s₂ : Store} :
      s.look upper path = some v → (s.look base path).bind s.entries? = some under →
      s.entries? v = some above → s.GrowsTo s₁ → s₁.Sound → Laid s₁ under above s₂ inner →
      s₂.GrowsTo t → t.look merged path = some fresh → t.entries? fresh = some inner →
      PathLaid s base upper t merged path
  /-- Something on the way of the upper entries is no mapping: nothing is left
  behind it. -/
  | blocked : ¬ s.Silent upper path → s.look upper path = none → t.look merged path = none →
      PathLaid s base upper t merged path

/-- What takes the place of something else hides all that was behind it. -/
theorem Laid.path_of_replaced (h : Laid s base upper t merged) (hs : s.Sound)
    (hbase : s.Fits (.mapping base)) (hupper : s.Fits (.mapping upper)) {key : String}
    {value : Item} (hfind : Entries.find? (.text key) upper = some value)
    (hcond : (Entries.find? (.text key) base).bind s.entries? = none ∨ s.entries? value = none)
    (hmerged : Entries.find? (.text key) merged = some value) (rest : List String) :
    PathLaid s base upper t merged (key :: rest) := by
  have hgrows := (h.sound hs hbase hupper).1
  have hsame : t.look merged (key :: rest) = s.look upper (key :: rest) := by
    rw [look_cons_some hmerged, look_cons_some hfind,
      hgrows.find?_eq hs (hupper.holds_of_find? hfind)]
  by_cases hrest : rest = []
  · subst hrest
    refine .replaced (look_cons_some hfind []) ?_ (look_cons_some hmerged [])
    rcases hcond with hcond | hcond
    · left
      rw [look]
      cases hi : Entries.find? (.text key) base with
      | none => rfl
      | some i => rwa [hi] at hcond
    · exact .inr hcond
  · -- behind the key only a mapping has anything, so what was there is none
    have hnone (inner : List (Value × Item)) (hinner : s.entries? value = some inner) :
        s.look base (key :: rest) = none := by
      refine look_cons_eq_none (hcond.resolve_right ?_) hrest
      rw [hinner]
      exact Option.some_ne_none _
    cases hv : s.look upper (key :: rest) with
    | some v =>
      have hinner := hv
      rw [look_cons_some hfind, find?_eq_look hrest] at hinner
      obtain ⟨inner, hinner, -⟩ := Option.bind_eq_some_iff.mp hinner
      exact .replaced hv (.inl (by rw [hnone inner hinner]; rfl)) (hsame.trans hv)
    | none =>
      by_cases hsilent : s.Silent upper (key :: rest)
      · obtain ⟨inner, hinner, -⟩ := hsilent value hfind
        exact .silent hsilent ((hsame.trans hv).trans (hnone inner hinner).symm)
      · exact .blocked hsilent hv (hsame.trans hv)

/-- **The law of merging by paths.** -/
theorem Laid.path (h : Laid s base upper t merged) (hs : s.Sound)
    (hbase : s.Fits (.mapping base)) (hupper : s.Fits (.mapping upper)) {path : List String}
    (hpath : path ≠ []) : PathLaid s base upper t merged path := by
  induction path generalizing s base upper t merged with
  | nil => exact absurd rfl hpath
  | cons key rest ih =>
    have hgrows := (h.sound hs hbase hupper).1
    cases h.key hs hbase hupper key with
    | kept hfind hmerged =>
      refine .silent (fun i hi => ?_) ?_
      · rw [hfind] at hi
        cases hi
      · rw [look, look, hmerged]
        cases hi : Entries.find? (.text key) base with
        | none => rfl
        | some i => exact hgrows.find?_eq hs (hbase.holds_of_find? hi) rest
    | replaced hfind hcond hmerged =>
      exact h.path_of_replaced hs hbase hupper hfind hcond hmerged rest
    | @nested value fresh under above inner s₁ s₂ hfind hunder habove hfirst hsound hinner hlast
        hmerged hfresh =>
      by_cases hrest : rest = []
      · subst hrest
        obtain ⟨i, hi, hiUnder⟩ := Option.bind_eq_some_iff.mp hunder
        refine .nested (look_cons_some hfind []) ?_ habove hfirst hsound hinner hlast
          (look_cons_some hmerged []) hfresh
        rw [look_cons_some hi]
        exact hiUnder
      · have hunderFits := (hs.fits_under hunder).mono hfirst.size_le
        have haboveFits := (hs.fits_entries habove).mono hfirst.size_le
        obtain ⟨-, hsound₂, hfits₂⟩ := hinner.sound hsound hunderFits haboveFits
        -- the same four questions, asked one section further down
        have hbaseLook : s₁.look under rest = s.look base (key :: rest) := by
          rw [hfirst.look_eq hs (hs.fits_under hunder), look_cons_under hunder hrest]
        have hupperLook : s₁.look above rest = s.look upper (key :: rest) := by
          rw [hfirst.look_eq hs (hs.fits_entries habove), look_cons_entries hfind habove hrest]
        have hmergedLook : s₂.look inner rest = t.look merged (key :: rest) := by
          rw [look_cons_entries hmerged hfresh hrest, hlast.look_eq hsound₂ hfits₂]
        have hsilentIff : s₁.Silent above rest ↔ s.Silent upper (key :: rest) := by
          rw [hfirst.silent_iff hs (hs.fits_entries habove), silent_cons_entries hfind habove]
        have hbaseEntries : (s.look base (key :: rest)).bind s₁.entries?
            = (s.look base (key :: rest)).bind s.entries? := by
          cases hi : s.look base (key :: rest) with
          | none => rfl
          | some i => exact hfirst.entries?_eq (hbase.holds_of_look hs hi)
        cases ih hinner hsound hunderFits haboveFits hrest with
        | silent hsilent hlook =>
          rw [hmergedLook, hbaseLook] at hlook
          exact .silent (hsilentIff.mp hsilent) hlook
        | replaced hv hcond hlook =>
          rw [hupperLook] at hv
          rw [hbaseLook, hbaseEntries, hfirst.entries?_eq (hupper.holds_of_look hs hv)] at hcond
          exact .replaced hv hcond (hmergedLook ▸ hlook)
        | nested hv hunder' habove' hfirst' hsound' hinner' hlast' hlook hfresh' =>
          rw [hupperLook] at hv
          rw [hbaseLook, hbaseEntries] at hunder'
          rw [hfirst.entries?_eq (hupper.holds_of_look hs hv)] at habove'
          refine .nested hv hunder' habove' (hfirst.trans hfirst') hsound' hinner'
            (hlast'.trans hlast) (hmergedLook ▸ hlook) ?_
          rw [hlast.entries?_eq (hfits₂.holds_of_look hsound₂ hlook)]
          exact hfresh'
        | blocked hsilent hnone hlook =>
          exact .blocked (fun hsil => hsilent (hsilentIff.mpr hsil)) (hupperLook ▸ hnone)
            (hmergedLook ▸ hlook)

/-- Where the upper entries are silent, what was there stays. -/
theorem Laid.look_of_silent (h : Laid s base upper t merged) (hs : s.Sound)
    (hbase : s.Fits (.mapping base)) (hupper : s.Fits (.mapping upper)) {path : List String}
    (hpath : path ≠ []) (hsilent : s.Silent upper path) :
    t.look merged path = s.look base path := by
  have hnone := look_eq_none_of_silent hsilent
  cases h.path hs hbase hupper hpath with
  | silent _ hkept => exact hkept
  | replaced hv _ _ =>
    rw [hnone] at hv
    cases hv
  | nested hv _ _ _ _ _ _ _ _ =>
    rw [hnone] at hv
    cases hv
  | blocked hloud _ _ => exact absurd hsilent hloud

/-- What the upper entries have under the path is there, if it is no mapping. -/
theorem Laid.look_of_leaf (h : Laid s base upper t merged) (hs : s.Sound)
    (hbase : s.Fits (.mapping base)) (hupper : s.Fits (.mapping upper)) {path : List String}
    (hpath : path ≠ []) {v : Item} (hv : s.look upper path = some v)
    (hleaf : s.entries? v = none) : t.look merged path = some v := by
  cases h.path hs hbase hupper hpath with
  | silent hsilent _ =>
    rw [look_eq_none_of_silent hsilent] at hv
    cases hv
  | replaced hw _ hthere =>
    rw [hv] at hw
    cases hw
    exact hthere
  | nested hw _ habove _ _ _ _ _ _ =>
    rw [hv] at hw
    cases hw
    rw [hleaf] at habove
    cases habove
  | blocked _ hnone _ =>
    rw [hnone] at hv
    cases hv

/-- Where the upper entries are not silent but have nothing or no value, no value
is left. -/
theorem Laid.look_ne_of_not_silent (h : Laid s base upper t merged) (hs : s.Sound)
    (hbase : s.Fits (.mapping base)) (hupper : s.Fits (.mapping upper)) {path : List String}
    (hpath : path ≠ []) (hloud : ¬ s.Silent upper path) {v : Item} (hv : v.isNull = false)
    (hnull : ∀ w, s.look upper path = some w → w.isNull = true) :
    t.look merged path ≠ some v := by
  cases h.path hs hbase hupper hpath with
  | silent hsilent _ => exact absurd hsilent hloud
  | replaced hw _ hthere =>
    rw [hthere]
    rintro ⟨rfl⟩
    rw [hnull _ hw] at hv
    cases hv
  | nested hw _ habove _ _ _ _ _ _ =>
    -- no value is no mapping
    have hnullAbove := hnull _ hw
    obtain ⟨a, rfl, -⟩ := entries?_eq_some_iff.mp habove
    cases hnullAbove
  | blocked _ _ hthere =>
    rw [hthere]
    exact nofun

/-! ### Merging within a depth -/

/-- The mappings in an item lie no deeper one within another than a depth. -/
def NestsWithin (s : Store) : (depth : Nat) → Item → Prop
  | 0, i => s.entries? i = none
  | depth + 1, i => ∀ entries, s.entries? i = some entries →
    ∀ e ∈ entries, s.NestsWithin depth e.2

theorem GrowsTo.nestsWithin (h : s.GrowsTo t) (hs : s.Sound) {depth : Nat} {i : Item}
    (hi : s.Holds i) (hn : s.NestsWithin depth i) : t.NestsWithin depth i := by
  induction depth generalizing i with
  | zero =>
    show t.entries? i = none
    rw [h.entries?_eq hi]
    exact hn
  | succ depth ih =>
    intro entries hentries e he
    rw [h.entries?_eq hi] at hentries
    exact ih ((fits_mapping.mp (hs.fits_entries hentries)).1 e he) (hn entries hentries e he)

theorem mergeTo_cons_replace {depth : Nat} {key : Value} {value : Item}
    {rest : List (Value × Item)}
    (h : (Entries.find? key base).bind s.entries? = none ∨ s.entries? value = none) :
    mergeTo (depth + 1) base ((key, value) :: rest) s
      = mergeTo (depth + 1) (Entries.insert key value base) rest s := by
  rw [mergeTo, List.foldlM_cons]
  dsimp only
  split
  · rename_i hunder habove
    rw [hunder, habove] at h
    rcases h with h | h <;> cases h
  · rfl

theorem mergeTo_cons_nest {depth : Nat} {key : Value} {value : Item}
    {rest under above inner : List (Value × Item)}
    (hunder : (Entries.find? key base).bind s.entries? = some under)
    (habove : s.entries? value = some above)
    (hinner : mergeTo depth under above s = some (inner, t)) :
    mergeTo (depth + 1) base ((key, value) :: rest) s
      = mergeTo (depth + 1) (Entries.insert key (t.add (.mapping inner)).1 base) rest
          (t.add (.mapping inner)).2 := by
  rw [mergeTo, List.foldlM_cons]
  simp only [hunder, habove, hinner]
  rfl

/-- What comes of merging does not depend on the depth. -/
theorem mergeTo_succ {depth : Nat} (h : mergeTo depth base upper s = some (merged, t)) :
    mergeTo (depth + 1) base upper s = some (merged, t) := by
  induction depth generalizing s base upper merged t with
  | zero => cases h
  | succ depth ihDepth =>
    induction upper generalizing s base with
    | nil => exact h
    | cons e rest ihRest =>
      rcases mergeTo_cons_cases h with
        ⟨hnone, h⟩ | ⟨under, above, inner, u, hunder, habove, hinner, h⟩
      · rw [mergeTo_cons_replace hnone]
        exact ihRest h
      · rw [mergeTo_cons_nest hunder habove (ihDepth hinner)]
        exact ihRest h

/-- Merging succeeds where the upper entries nest within the depth. -/
theorem exists_mergeTo {depth : Nat} (hs : s.Sound) (hbase : s.Fits (.mapping base))
    (hupper : s.Fits (.mapping upper)) (hn : ∀ e ∈ upper, s.NestsWithin depth e.2) :
    ∃ merged t, mergeTo (depth + 1) base upper s = some (merged, t) := by
  induction depth generalizing s base upper with
  | zero =>
    -- no value is a mapping, so none is merged
    induction upper generalizing base with
    | nil => exact ⟨base, s, rfl⟩
    | cons e rest ihRest =>
      obtain ⟨hvalue, hrest⟩ := fits_cons hupper
      rw [mergeTo_cons_replace (.inr (hn e List.mem_cons_self))]
      exact ihRest (hbase.insert _ hvalue) hrest fun f hf => hn f (List.mem_cons_of_mem _ hf)
  | succ depth ihDepth =>
    induction upper generalizing s base with
    | nil => exact ⟨base, s, rfl⟩
    | cons e rest ihRest =>
      obtain ⟨key, value⟩ := e
      obtain ⟨hvalue, hrest⟩ := fits_cons hupper
      have hnRest : ∀ f ∈ rest, s.NestsWithin (depth + 1) f.2 :=
        fun f hf => hn f (List.mem_cons_of_mem _ hf)
      cases hunder : (Entries.find? key base).bind s.entries? with
      | none =>
        rw [mergeTo_cons_replace (.inl hunder)]
        exact ihRest hs (hbase.insert key hvalue) hrest hnRest
      | some under =>
        cases habove : s.entries? value with
        | none =>
          rw [mergeTo_cons_replace (.inr habove)]
          exact ihRest hs (hbase.insert key hvalue) hrest hnRest
        | some above =>
          have hunderFits := hs.fits_under hunder
          have haboveFits := hs.fits_entries habove
          obtain ⟨inner, t, hinner⟩ := ihDepth hs hunderFits haboveFits
            (hn (key, value) List.mem_cons_self above habove)
          obtain ⟨hgrows, ht, hfits⟩ := (laid_of_mergeTo hinner).sound hs hunderFits haboveFits
          have hstep : s.GrowsTo (t.add (.mapping inner)).2 := hgrows.trans (growsTo_add t _)
          rw [mergeTo_cons_nest hunder habove hinner]
          refine ihRest (ht.add hfits) ((hbase.mono hstep.size_le).insert key holds_add)
            (hrest.mono hstep.size_le) fun f hf => ?_
          exact hstep.nestsWithin hs ((fits_mapping.mp hrest).1 f hf) (hnRest f hf)

/-- A mapping that nests within the depth can be laid over any other. -/
theorem exists_mergeTo_of_nestsWithin {depth : Nat} {i : Item} (hs : s.Sound)
    (hbase : s.Fits (.mapping base)) (hi : s.entries? i = some upper)
    (hn : s.NestsWithin depth i) : ∃ merged t, mergeTo depth base upper s = some (merged, t) := by
  cases depth with
  | zero => cases hi.symm.trans hn
  | succ depth => exact exists_mergeTo hs hbase (hs.fits_entries hi) (hn upper hi)

end Store

end Winnow
