/-
Winnow/Proofs/Store/MergingAlike.lean

Merging mappings that are the same but for the order of keys.

Two keys of other kinds than texts may be the same key without being equal, so what
becomes of such keys is looked at only where one of the two sides has none of them
(`TextKeyed`, `OneTextKeyed`).  Then they are kept as they are
(`Laid.mem_iff_of_not_text`), and what is found under texts is settled by
`Laid.key`.

Main results, for mappings that are the same but for the order of keys in two
stores: one merges just if the other does (`mergeTo_isSome_iff`,
`AlikeInputs.mergesWithin`), and what comes of it is the same but for the order of
keys (`Laid.alikeEntries`, `merge_alike`).
-/
import Winnow.Proofs.Store.Merging
import Winnow.Proofs.Store.Rearranged
import Winnow.Proofs.Store.TextKeys

namespace Winnow

namespace Store

variable {s t s' t' : Store} {base upper merged base' upper' merged' : List (Value × Item)}

/-! ### Keys that are no texts -/

/-- No key of the upper entries other than a text is one of the entries below. -/
def Apart (base upper : List (Value × Item)) : Prop :=
  ∀ b ∈ base, ∀ e ∈ upper, (∀ k, e.1 ≠ .text k) → b.1.sameKey e.1 = false

theorem Apart.insert {key : Value} {value i : Item} (h : Apart base ((key, value) :: upper))
    (hdistinct : Entries.DistinctKeys ((key, value) :: upper)) :
    Apart (Entries.insert key i base) upper := by
  intro b hb e he htext
  rcases Entries.key_mem_insert hb with hkey | ⟨f, hf, hkey⟩
  · rw [hkey]
    exact (List.pairwise_cons.mp hdistinct).1 e he
  · rw [← hkey]
    exact h f hf e (List.mem_cons_of_mem _ he) htext

/-- What both sides have under one key has a text for its key. -/
theorem Apart.text_of_find? {key : Value} {value : Item} (h : Apart base ((key, value) :: upper))
    {i : Item} (hfind : Entries.find? key base = some i) : ∃ k, key = .text k := by
  by_contra hnone
  obtain ⟨k, hk, hsame⟩ := Entries.mem_of_find? hfind
  have hfalse := h (k, i) hk (key, value) List.mem_cons_self fun x hx => hnone ⟨x, hx⟩
  rw [hsame] at hfalse
  cases hfalse

/-- What replaces or is added under a key, among the entries that have no texts for
their keys. -/
theorem Apart.mem_insert_iff {key : Value} {value i : Item}
    (h : Apart base ((key, value) :: upper)) (hi : i = value ∨ ∃ k, key = .text k)
    {e : Value × Item} (he : ∀ k, e.1 ≠ .text k) :
    e ∈ Entries.insert key i base ↔ e ∈ base ∨ e = (key, value) := by
  by_cases htext : ∃ k, key = .text k
  · obtain ⟨k, rfl⟩ := htext
    rw [Entries.mem_insert_text_iff he]
    have hne : e ≠ (.text k, value) := fun heq => he k (by rw [heq])
    exact (or_iff_left hne).symm
  · rw [hi.resolve_right htext, Entries.insert_of_forall_ne, List.mem_append, List.mem_singleton]
    exact fun b hb => h b hb (key, value) List.mem_cons_self fun k hk => htext ⟨k, hk⟩

/-- Entries whose keys are no texts are kept from both sides. -/
theorem Laid.mem_iff_of_not_text (h : Laid s base upper t merged) (happart : Apart base upper)
    (hdistinct : Entries.DistinctKeys upper) {e : Value × Item} (he : ∀ k, e.1 ≠ .text k) :
    e ∈ merged ↔ e ∈ base ∨ e ∈ upper := by
  induction h with
  | done => exact (or_iff_left List.not_mem_nil).symm
  | replace _ _ ih =>
    rw [ih (happart.insert hdistinct) hdistinct.tail, happart.mem_insert_iff (.inl rfl) he,
      List.mem_cons, or_assoc]
  | nest hunder _ _ _ _ ih =>
    obtain ⟨i, hi, -⟩ := Option.bind_eq_some_iff.mp hunder
    rw [ih (happart.insert hdistinct) hdistinct.tail,
      happart.mem_insert_iff (.inr (happart.text_of_find? hi)) he, List.mem_cons, or_assoc]

/-! ### Mappings to be merged -/

/-- One of the two sides has texts for keys throughout. -/
def OneTextKeyed (s : Store) (base upper : List (Value × Item)) : Prop :=
  s.TextKeyed base ∨ s.TextKeyed upper

theorem OneTextKeyed.apart (h : s.OneTextKeyed base upper) : Apart base upper := by
  intro b hb e he htext
  rcases h with h | h
  · obtain ⟨k, hk⟩ := h.here b hb
    rw [hk]
    exact Bool.eq_false_iff.mpr fun hsame => htext k (text_sameKey_iff.mp hsame)
  · obtain ⟨k, hk⟩ := h.here e he
    exact absurd hk (htext k)

/-- Entries to be merged in a store. -/
structure MergeInput (s : Store) (base upper : List (Value × Item)) : Prop where
  sound : s.Sound
  baseFits : s.Fits (.mapping base)
  upperFits : s.Fits (.mapping upper)
  keyed : s.OneTextKeyed base upper

namespace MergeInput

variable {under above : List (Value × Item)} {key : String} {value : Item}

/-- The mappings under one key are to be merged in turn, also in a later store. -/
theorem inner (h : s.MergeInput base upper)
    (hunder : (Entries.find? (.text key) base).bind s.entries? = some under)
    (hvalue : Entries.find? (.text key) upper = some value)
    (habove : s.entries? value = some above) (hgrows : s.GrowsTo t) (ht : t.Sound) :
    t.MergeInput under above := by
  have hunderFits := h.sound.fits_under hunder
  have haboveFits := h.sound.fits_entries habove
  refine ⟨ht, hunderFits.mono hgrows.size_le, haboveFits.mono hgrows.size_le, ?_⟩
  rcases h.keyed with hkeyed | hkeyed
  · exact .inl ((hkeyed.inner hunder).mono hgrows h.sound hunderFits)
  · have habove' : (Entries.find? (.text key) upper).bind s.entries? = some above := by
      rw [hvalue, Option.bind_some, habove]
    exact .inr ((hkeyed.inner habove').mono hgrows h.sound haboveFits)

end MergeInput

/-! ### Whether mappings merge -/

/-- Entries merge within a depth: where both sides have a mapping under a text, these
merge within what is left of the depth. -/
def MergesWithin (s : Store) : (depth : Nat) → (base upper : List (Value × Item)) → Prop
  | 0, _, _ => False
  | depth + 1, base, upper => ∀ key value under above,
    Entries.find? (.text key) upper = some value →
    (Entries.find? (.text key) base).bind s.entries? = some under →
    s.entries? value = some above → s.MergesWithin depth under above

/-- Where nothing is put over it, a mapping merges. -/
theorem mergesWithin_nil (s : Store) (depth : Nat) (base : List (Value × Item)) :
    s.MergesWithin (depth + 1) base [] := by
  intro key value under above hvalue
  cases hvalue

theorem GrowsTo.mergesWithin_iff (hgrows : s.GrowsTo t) (hs : s.Sound) {depth : Nat}
    (hbase : s.Fits (.mapping base)) (hupper : s.Fits (.mapping upper)) :
    t.MergesWithin depth base upper ↔ s.MergesWithin depth base upper := by
  induction depth generalizing base upper with
  | zero => exact Iff.rfl
  | succ depth ih =>
    refine forall_congr' fun key => forall_congr' fun value => forall_congr' fun under =>
      forall_congr' fun above => forall_congr' fun hvalue => ?_
    rw [hgrows.bind_entries?_eq hbase, hgrows.entries?_eq (hupper.holds_of_find? hvalue)]
    refine forall_congr' fun hunder => forall_congr' fun habove => ?_
    exact ih (hs.fits_under hunder) (hs.fits_entries habove)

/-- What is left to be merged after some of the upper entries: their keys do not come
again, and mappings under one key are still to be merged. -/
structure MergeRest (s : Store) (base upper : List (Value × Item)) : Prop where
  sound : s.Sound
  baseFits : s.Fits (.mapping base)
  upperFits : s.Fits (.mapping upper)
  apart : Apart base upper
  inner : ∀ key value under above, Entries.find? (.text key) upper = some value →
    (Entries.find? (.text key) base).bind s.entries? = some under →
    s.entries? value = some above → s.MergeInput under above

theorem MergeInput.rest (h : s.MergeInput base upper) : s.MergeRest base upper :=
  ⟨h.sound, h.baseFits, h.upperFits, h.keyed.apart, fun _ _ _ _ hvalue hunder habove =>
    h.inner hunder hvalue habove (.refl s) h.sound⟩

theorem MergeInput.mono (h : s.MergeInput base upper) (hgrows : s.GrowsTo t) (ht : t.Sound) :
    t.MergeInput base upper :=
  ⟨ht, h.baseFits.mono hgrows.size_le, h.upperFits.mono hgrows.size_le,
    h.keyed.imp (fun hkeyed => hkeyed.mono hgrows h.sound h.baseFits)
      (fun hkeyed => hkeyed.mono hgrows h.sound h.upperFits)⟩

section Step

variable {key : Value} {value i : Item} {rest : List (Value × Item)}

/-- The entry for another key is looked up as before, once one entry is merged. -/
theorem find?_of_find?_rest (hupper : s.Fits (.mapping ((key, value) :: rest)))
    (base : List (Value × Item)) (i : Item) {k : String} {v : Item}
    (hv : Entries.find? (.text k) rest = some v) :
    Entries.find? (.text k) ((key, value) :: rest) = some v ∧
      Entries.find? (.text k) (Entries.insert key i base) = Entries.find? (.text k) base := by
  have hne : key ≠ .text k := by
    rintro rfl
    rw [(hupper.distinct _ rfl).find?_tail] at hv
    cases hv
  exact ⟨((Entries.find?_text_cons key value rest).2 hne).trans hv,
    Entries.find?_insert_of_ne hne⟩

theorem MergeRest.step (h : s.MergeRest base ((key, value) :: rest)) (hgrows : s.GrowsTo t)
    (ht : t.Sound) (hi : t.Holds i) : t.MergeRest (Entries.insert key i base) rest := by
  have hrestFits := (fits_cons h.upperFits).2
  refine ⟨ht, (h.baseFits.mono hgrows.size_le).insert key hi, hrestFits.mono hgrows.size_le,
    h.apart.insert (h.upperFits.distinct _ rfl), fun k v under above hv hunder habove => ?_⟩
  obtain ⟨hthere, hbefore⟩ := find?_of_find?_rest h.upperFits base i hv
  rw [hbefore, hgrows.bind_entries?_eq h.baseFits] at hunder
  rw [hgrows.entries?_eq (hrestFits.holds_of_find? hv)] at habove
  exact (h.inner k v under above hthere hunder habove).mono hgrows ht

/-- Entries merge within a depth just if the first of them does, and then the others
do. -/
theorem mergesWithin_cons_iff {depth : Nat} (h : s.MergeRest base ((key, value) :: rest))
    (hgrows : s.GrowsTo t) :
    s.MergesWithin (depth + 1) base ((key, value) :: rest) ↔
      (∀ k under above, key = .text k → (Entries.find? key base).bind s.entries? = some under →
        s.entries? value = some above → s.MergesWithin depth under above) ∧
      t.MergesWithin (depth + 1) (Entries.insert key i base) rest := by
  have hrestFits := (fits_cons h.upperFits).2
  constructor
  · intro hwithin
    constructor
    · rintro k under above rfl hunder habove
      exact hwithin k value under above ((Entries.find?_text_cons _ _ _).1 rfl) hunder habove
    · intro k v under above hv hunder habove
      obtain ⟨hthere, hbefore⟩ := find?_of_find?_rest h.upperFits base i hv
      rw [hbefore, hgrows.bind_entries?_eq h.baseFits] at hunder
      rw [hgrows.entries?_eq (hrestFits.holds_of_find? hv)] at habove
      rw [hgrows.mergesWithin_iff h.sound (h.sound.fits_under hunder)
        (h.sound.fits_entries habove)]
      exact hwithin k v under above hthere hunder habove
  · rintro ⟨hfirst, hwithin⟩ k v under above hv hunder habove
    by_cases hkey : key = .text k
    · subst hkey
      cases ((Entries.find?_text_cons _ value rest).1 rfl).symm.trans hv
      exact hfirst k under above rfl hunder habove
    · rw [(Entries.find?_text_cons key value rest).2 hkey] at hv
      have hunder' : (Entries.find? (.text k) (Entries.insert key i base)).bind t.entries?
          = some under := by
        rw [Entries.find?_insert_of_ne hkey, hgrows.bind_entries?_eq h.baseFits, hunder]
      have habove' : t.entries? v = some above := by
        rw [hgrows.entries?_eq (hrestFits.holds_of_find? hv), habove]
      have hinner := hwithin k v under above hv hunder' habove'
      rwa [hgrows.mergesWithin_iff h.sound (h.sound.fits_under hunder)
        (h.sound.fits_entries habove)] at hinner

end Step

/-- Merging succeeds just where the depth suffices. -/
theorem mergeTo_isSome_iff {depth : Nat} (h : s.MergeRest base upper) :
    (mergeTo depth base upper s).isSome = true ↔ s.MergesWithin depth base upper := by
  induction depth generalizing s base upper with
  | zero => exact iff_of_false Bool.false_ne_true id
  | succ depth ihDepth =>
    induction upper generalizing s base with
    | nil => exact iff_of_true rfl (mergesWithin_nil s depth base)
    | cons e rest ihRest =>
      obtain ⟨key, value⟩ := e
      have hvalue := (fits_cons h.upperFits).1
      -- what is replaced leaves only the others to be merged
      have hreplace (hnone : (Entries.find? key base).bind s.entries? = none ∨
          s.entries? value = none) :
          (mergeTo (depth + 1) base ((key, value) :: rest) s).isSome = true ↔
            s.MergesWithin (depth + 1) base ((key, value) :: rest) := by
        rw [mergeTo_cons_replace hnone, ihRest (h.step (.refl s) h.sound hvalue),
          mergesWithin_cons_iff h (.refl s)]
        refine (and_iff_right ?_).symm
        intro k under above _ hunder habove
        rw [hunder, habove] at hnone
        rcases hnone with hnone | hnone <;> cases hnone
      cases hunder : (Entries.find? key base).bind s.entries? with
      | none => exact hreplace (.inl hunder)
      | some under =>
        cases habove : s.entries? value with
        | none => exact hreplace (.inr habove)
        | some above =>
          obtain ⟨i, hi, -⟩ := Option.bind_eq_some_iff.mp hunder
          obtain ⟨k, rfl⟩ := h.apart.text_of_find? hi
          have hinput := h.inner k value under above ((Entries.find?_text_cons _ _ _).1 rfl)
            hunder habove
          have hinnerIff := ihDepth hinput.rest
          cases hmerge : mergeTo depth under above s with
          | none =>
            rw [hmerge] at hinnerIff
            refine iff_of_false ?_ fun hwithin => ?_
            · rw [mergeTo, List.foldlM_cons]
              simp only [hunder, habove, hmerge]
              exact Bool.false_ne_true
            · have hfirst := ((mergesWithin_cons_iff (i := value) h (.refl s)).mp hwithin).1
              exact Bool.false_ne_true (hinnerIff.mpr (hfirst k under above rfl hunder habove))
          | some result =>
            obtain ⟨inner, t⟩ := result
            rw [hmerge] at hinnerIff
            obtain ⟨hgrows, ht, hfits⟩ :=
              (laid_of_mergeTo hmerge).sound h.sound hinput.baseFits hinput.upperFits
            have hstep : s.GrowsTo (t.add (.mapping inner)).2 := hgrows.trans (growsTo_add t _)
            rw [mergeTo_cons_nest hunder habove hmerge,
              ihRest (h.step hstep (ht.add hfits) holds_add), mergesWithin_cons_iff h hstep]
            refine (and_iff_right ?_).symm
            rintro k' under' above' - hunder' habove'
            cases hunder.symm.trans hunder'
            cases habove.symm.trans habove'
            exact hinnerIff.mp rfl

/-! ### What comes of mappings that are alike -/

/-- Entries to be merged in two stores, which are the same but for the order of
keys. -/
structure AlikeInputs (s : Store) (base upper : List (Value × Item)) (s' : Store)
    (base' upper' : List (Value × Item)) : Prop where
  left : s.MergeInput base upper
  right : s'.MergeInput base' upper'
  base : s.AlikeEntries s' base base'
  upper : s.AlikeEntries s' upper upper'

namespace AlikeInputs

variable {key : String} {value value' : Item} {under above under' above' : List (Value × Item)}

theorem symm (h : AlikeInputs s base upper s' base' upper') :
    AlikeInputs s' base' upper' s base upper := ⟨h.right, h.left, h.base.symm, h.upper.symm⟩

/-- What the upper entries have under a text is the same but for the order of keys. -/
theorem find?_upper (h : AlikeInputs s base upper s' base' upper') (key : String) :
    s.SameOption s' (Entries.find? (.text key) upper) (Entries.find? (.text key) upper') :=
  h.upper.find? (h.left.upperFits.distinct _ rfl) (h.right.upperFits.distinct _ rfl) key

theorem find?_base (h : AlikeInputs s base upper s' base' upper') (key : String) :
    s.SameOption s' (Entries.find? (.text key) base) (Entries.find? (.text key) base') :=
  h.base.find? (h.left.baseFits.distinct _ rfl) (h.right.baseFits.distinct _ rfl) key

end AlikeInputs

theorem exists_entries_of_sameOption {x y : Option Item} (h : s.SameOption s' x y)
    {under : List (Value × Item)} (hx : x.bind s.entries? = some under) :
    ∃ under', y.bind s'.entries? = some under' ∧ s.AlikeEntries s' under under' := by
  obtain ⟨i, hi, hunder⟩ := Option.bind_eq_some_iff.mp hx
  obtain ⟨j, hj, halike⟩ := exists_of_sameOption h hi
  obtain ⟨under', hunder', hentries⟩ := halike.exists_entries hunder
  exact ⟨under', by rw [hj, Option.bind_some, hunder'], hentries⟩

namespace AlikeInputs

variable {key : String} {value : Item} {under above : List (Value × Item)}

/-- Where one side has two mappings under a text, so has the other, and these are to
be merged in turn. -/
theorem inner (h : AlikeInputs s base upper s' base' upper')
    (hvalue : Entries.find? (.text key) upper = some value)
    (hunder : (Entries.find? (.text key) base).bind s.entries? = some under)
    (habove : s.entries? value = some above) :
    ∃ value' under' above', Entries.find? (.text key) upper' = some value' ∧
      (Entries.find? (.text key) base').bind s'.entries? = some under' ∧
      s'.entries? value' = some above' ∧ AlikeInputs s under above s' under' above' := by
  obtain ⟨value', hvalue', -⟩ := exists_of_sameOption (h.find?_upper key) hvalue
  obtain ⟨under', hunder', hunderAlike⟩ := exists_entries_of_sameOption (h.find?_base key) hunder
  have habove₂ : (Entries.find? (.text key) upper).bind s.entries? = some above := by
    rw [hvalue, Option.bind_some, habove]
  obtain ⟨above', habove', haboveAlike⟩ := exists_entries_of_sameOption (h.find?_upper key) habove₂
  rw [hvalue', Option.bind_some] at habove'
  exact ⟨value', under', above', hvalue', hunder', habove',
    h.left.inner hunder hvalue habove (.refl s) h.left.sound,
    h.right.inner hunder' hvalue' habove' (.refl s') h.right.sound, hunderAlike, haboveAlike⟩

theorem mono (h : AlikeInputs s base upper s' base' upper') (hs : s.GrowsTo t) (ht : t.Sound)
    (hs' : s'.GrowsTo t') (ht' : t'.Sound) : AlikeInputs t base upper t' base' upper' :=
  ⟨h.left.mono hs ht, h.right.mono hs' ht', h.base.mono hs hs', h.upper.mono hs hs'⟩

/-- Both sides merge within the same depth. -/
theorem mergesWithin (h : AlikeInputs s base upper s' base' upper') {depth : Nat}
    (hwithin : s.MergesWithin depth base upper) : s'.MergesWithin depth base' upper' := by
  induction depth generalizing base upper base' upper' with
  | zero => exact hwithin
  | succ depth ih =>
    intro key value' under' above' hvalue' hunder' habove'
    obtain ⟨value, under, above, hvalue, hunder, habove, hinner⟩ :=
      h.symm.inner hvalue' hunder' habove'
    exact ih hinner.symm (hwithin key value under above hvalue hunder habove)

end AlikeInputs

/-- Two items are mappings that come of merging in two stores. -/
def MergedAlike (t t' : Store) (i j : Item) : Prop :=
  ∃ s base upper s₂ merged s' base' upper' s₂' merged',
    AlikeInputs s base upper s' base' upper' ∧
    Laid s base upper s₂ merged ∧ s₂.GrowsTo t ∧ t.entries? i = some merged ∧
    Laid s' base' upper' s₂' merged' ∧ s₂'.GrowsTo t' ∧ t'.entries? j = some merged'

theorem MergedAlike.symm {i j : Item} (h : MergedAlike t t' i j) : MergedAlike t' t j i := by
  obtain ⟨s, base, upper, s₂, merged, s', base', upper', s₂', merged', halike, hlaid, hgrows, hi,
    hlaid', hgrows', hj⟩ := h
  exact ⟨s', base', upper', s₂', merged', s, base, upper, s₂, merged, halike.symm, hlaid', hgrows',
    hj, hlaid, hgrows, hi⟩

/-- What is found under a text after merging is on both sides the same, or comes of
merging in turn. -/
theorem Laid.exists_find?_alike {u u' : Store} (h : Laid s base upper t merged)
    (h' : Laid s' base' upper' t' merged') (halike : AlikeInputs s base upper s' base' upper')
    (hu : t.GrowsTo u) (hu' : t'.GrowsTo u') {key : String} {i : Item}
    (hi : Entries.find? (.text key) merged = some i) :
    ∃ j, Entries.find? (.text key) merged' = some j ∧
      (MergedAlike u u' i j ∨ u.Rearranged u' i j) := by
  obtain ⟨hs, hbaseFits, hupperFits, -⟩ := halike.left
  obtain ⟨hs', hbaseFits', hupperFits', -⟩ := halike.right
  obtain ⟨hgrows, ht, hfits⟩ := h.sound hs hbaseFits hupperFits
  obtain ⟨hgrows', ht', hfits'⟩ := h'.sound hs' hbaseFits' hupperFits'
  have hold {i j : Item} (hij : s.Rearranged s' i j) : u.Rearranged u' i j :=
    hij.mono (hgrows.trans hu) (hgrows'.trans hu')
  cases h.key hs hbaseFits hupperFits key with
  | kept hnone hmerged =>
    have hnone' := eq_none_of_sameOption (halike.find?_upper key) hnone
    rw [hmerged] at hi
    rw [(h'.key hs' hbaseFits' hupperFits' key).eq_of_find?_eq_none hnone']
    obtain ⟨j, hj, hij⟩ := exists_of_sameOption (halike.find?_base key) hi
    exact ⟨j, hj, .inr (hold hij)⟩
  | @replaced value hvalue hcond hmerged =>
    cases hmerged.symm.trans hi
    obtain ⟨value', hvalue', hij⟩ := exists_of_sameOption (halike.find?_upper key) hvalue
    cases h'.key hs' hbaseFits' hupperFits' key with
    | kept hnone' _ =>
      rw [hvalue'] at hnone'
      cases hnone'
    | replaced hfind' _ hmerged' =>
      cases hvalue'.symm.trans hfind'
      exact ⟨_, hmerged', .inr (hold hij)⟩
    | nested hfind' hunder' habove' _ _ _ _ _ _ =>
      -- two mappings on one side only is not possible
      obtain ⟨other, under, above, hother, hunder, habove, -⟩ :=
        halike.symm.inner hfind' hunder' habove'
      cases hvalue.symm.trans hother
      rw [hunder, habove] at hcond
      rcases hcond with hcond | hcond <;> cases hcond
  | @nested value fresh under above inner s₁ s₂ hvalue hunder habove hfirst hsound hlaid hlast
      hmerged hfresh =>
    cases hmerged.symm.trans hi
    obtain ⟨value', under', above', hvalue', hunder', habove', hinner⟩ :=
      halike.inner hvalue hunder habove
    cases h'.key hs' hbaseFits' hupperFits' key with
    | kept hnone' _ =>
      rw [hvalue'] at hnone'
      cases hnone'
    | replaced hfind' hcond' _ =>
      cases hvalue'.symm.trans hfind'
      rw [hunder', habove'] at hcond'
      rcases hcond' with hcond' | hcond' <;> cases hcond'
    | nested hfind' hunder₂ habove₂ hfirst' hsound' hlaid' hlast' hmerged' hfresh' =>
      cases hvalue'.symm.trans hfind'
      cases hunder'.symm.trans hunder₂
      cases habove'.symm.trans habove₂
      refine ⟨_, hmerged', .inl ⟨_, _, _, _, _, _, _, _, _, _,
        hinner.mono hfirst hsound hfirst' hsound', hlaid, hlast.trans hu, ?_, hlaid',
        hlast'.trans hu', ?_⟩⟩
      · rw [hu.entries?_eq (hfits.holds_of_find? hmerged), hfresh]
      · rw [hu'.entries?_eq (hfits'.holds_of_find? hmerged'), hfresh']

/-- Each entry that comes of merging has one on the other side that is the same or
comes of merging in turn. -/
theorem Laid.exists_alike {u u' : Store} (h : Laid s base upper t merged)
    (h' : Laid s' base' upper' t' merged') (halike : AlikeInputs s base upper s' base' upper')
    (hu : t.GrowsTo u) (hu' : t'.GrowsTo u') {e : Value × Item} (he : e ∈ merged) :
    ∃ f ∈ merged', e.1 = f.1 ∧ (MergedAlike u u' e.2 f.2 ∨ u.Rearranged u' e.2 f.2) := by
  obtain ⟨hs, hbaseFits, hupperFits, hkeyed⟩ := halike.left
  obtain ⟨hs', hbaseFits', hupperFits', hkeyed'⟩ := halike.right
  obtain ⟨hgrows, ht, hfits⟩ := h.sound hs hbaseFits hupperFits
  obtain ⟨hgrows', ht', hfits'⟩ := h'.sound hs' hbaseFits' hupperFits'
  by_cases htext : ∃ k, e.1 = .text k
  · obtain ⟨k, hk⟩ := htext
    obtain ⟨key, i⟩ := e
    dsimp only at hk
    subst hk
    have hi := (hfits.distinct _ rfl).find?_of_mem he
    obtain ⟨j, hj, hrelated⟩ := h.exists_find?_alike h' halike hu hu' hi
    obtain ⟨key, hmem, hsame⟩ := Entries.mem_of_find? hj
    exact ⟨_, hmem, (sameKey_text_iff.mp hsame).symm, hrelated⟩
  · have hnot : ∀ k, e.1 ≠ .text k := fun k hk => htext ⟨k, hk⟩
    rw [h.mem_iff_of_not_text hkeyed.apart (hupperFits.distinct _ rfl) hnot] at he
    have hother : ∃ f, (f ∈ base' ∨ f ∈ upper') ∧ e.1 = f.1 ∧ s.Rearranged s' e.2 f.2 := by
      rcases he with he | he
      · obtain ⟨f, hf, hrest⟩ := halike.base.left e he
        exact ⟨f, .inl hf, hrest⟩
      · obtain ⟨f, hf, hrest⟩ := halike.upper.left e he
        exact ⟨f, .inr hf, hrest⟩
    obtain ⟨f, hf, hkey, hrearranged⟩ := hother
    refine ⟨f, ?_, hkey, .inr (hrearranged.mono (hgrows.trans hu) (hgrows'.trans hu'))⟩
    rw [h'.mem_iff_of_not_text hkeyed'.apart (hupperFits'.distinct _ rfl) (hkey ▸ hnot)]
    exact hf

/-- Mappings that come of merging are the same but for the order of keys: they
match, with parts that come of merging or are the same. -/
theorem MergedAlike.rearranged {i j : Item} (h : MergedAlike t t' i j) : t.Rearranged t' i j := by
  refine rearranged_of (fun i j hij => ?_) h
  obtain ⟨s, base, upper, s₂, merged, s', base', upper', s₂', merged', halike, hlaid, hgrows, hi,
    hlaid', hgrows', hj⟩ := hij
  obtain ⟨a, rfl, hc⟩ := entries?_eq_some_iff.mp hi
  obtain ⟨b, rfl, hd⟩ := entries?_eq_some_iff.mp hj
  refine .object hc hd (.mapping (fun e he => hlaid.exists_alike hlaid' halike hgrows hgrows' he)
    fun f hf => ?_)
  obtain ⟨e, he, hkey, hrelated⟩ := hlaid'.exists_alike hlaid halike.symm hgrows' hgrows hf
  exact ⟨e, he, hkey.symm, hrelated.imp MergedAlike.symm Rearranged.symm⟩

/-- **What comes of merging** is the same but for the order of keys. -/
theorem Laid.alikeEntries (h : Laid s base upper t merged) (h' : Laid s' base' upper' t' merged')
    (halike : AlikeInputs s base upper s' base' upper') : t.AlikeEntries t' merged merged' := by
  refine ⟨fun e he => ?_, fun f hf => ?_⟩
  · obtain ⟨f, hf, hkey, hrelated⟩ := h.exists_alike h' halike (.refl t) (.refl t') he
    exact ⟨f, hf, hkey, hrelated.elim MergedAlike.rearranged id⟩
  · obtain ⟨e, he, hkey, hrelated⟩ := h'.exists_alike h halike.symm (.refl t') (.refl t) hf
    exact ⟨e, he, hkey.symm, hrelated.elim (fun hm => hm.rearranged.symm) Rearranged.symm⟩

/-! ### Sections with texts for keys, merged -/

theorem Laid.keys_text (h : Laid s base upper t merged) (hdistinct : Entries.DistinctKeys upper)
    (hbase : ∀ e ∈ base, ∃ k, e.1 = .text k) (hupper : ∀ e ∈ upper, ∃ k, e.1 = .text k) :
    ∀ e ∈ merged, ∃ k, e.1 = .text k := by
  intro e he
  by_contra hnone
  have happart : Apart base upper := fun _ _ f hf htext =>
    absurd (hupper f hf) fun ⟨k, hk⟩ => htext k hk
  rcases (h.mem_iff_of_not_text happart hdistinct fun k hk => hnone ⟨k, hk⟩).mp he with he | he
  · exact hnone (hbase e he)
  · exact hnone (hupper e he)

/-- What comes of merging sections with texts for keys has texts for keys. -/
theorem TextKeyed.laid (hbase : s.TextKeyed base) (hupper : s.TextKeyed upper)
    (h : Laid s base upper t merged) (hs : s.Sound) (hbaseFits : s.Fits (.mapping base))
    (hupperFits : s.Fits (.mapping upper)) : t.TextKeyed merged := by
  have hgrows := (h.sound hs hbaseFits hupperFits).1
  refine ⟨h.keys_text (hupperFits.distinct _ rfl) hbase.here hupper.here, ?_⟩
  intro path i inner hi hinner
  have hpath : path ≠ [] := by
    rintro rfl
    cases hi
  cases h.path hs hbaseFits hupperFits hpath with
  | silent _ hkept =>
    rw [hkept] at hi
    rw [hgrows.entries?_eq (hbaseFits.holds_of_look hs hi)] at hinner
    exact hbase.within path i inner hi hinner
  | replaced hv _ hthere =>
    cases hthere.symm.trans hi
    rw [hgrows.entries?_eq (hupperFits.holds_of_look hs hv)] at hinner
    exact hupper.within path i inner hv hinner
  | nested hv hunder habove _ _ hlaid _ hthere hfresh =>
    cases hthere.symm.trans hi
    cases hfresh.symm.trans hinner
    obtain ⟨j, hj, hunder⟩ := Option.bind_eq_some_iff.mp hunder
    exact hlaid.keys_text ((hs.fits_entries habove).distinct _ rfl)
      (hbase.within path j _ hj hunder) (hupper.within path _ _ hv habove)
  | blocked _ _ hthere =>
    rw [hthere] at hi
    cases hi

/-! ### Merging twice -/

/-- Merging mappings that are alike fails on both sides, or what comes of it is
alike. -/
theorem merge_alike [Stack] (halike : AlikeInputs s base upper s' base' upper') :
    (merge base upper s = none ∧ merge base' upper' s' = none) ∨
    ∃ merged t merged' t', merge base upper s = some (merged, t) ∧
      merge base' upper' s' = some (merged', t') ∧ Laid s base upper t merged ∧
      Laid s' base' upper' t' merged' ∧ t.AlikeEntries t' merged merged' := by
  have hleft : (mergeTo Stack.mappings base upper s).isSome = true ↔
      s.MergesWithin Stack.mappings base upper := mergeTo_isSome_iff halike.left.rest
  have hright : (mergeTo Stack.mappings base' upper' s').isSome = true ↔
      s'.MergesWithin Stack.mappings base' upper' := mergeTo_isSome_iff halike.right.rest
  have hsame : s.MergesWithin Stack.mappings base upper ↔
      s'.MergesWithin Stack.mappings base' upper' :=
    ⟨halike.mergesWithin, halike.symm.mergesWithin⟩
  rw [hsame, ← hright] at hleft
  cases hmerge : merge base upper s with
  | none =>
    refine .inl ⟨rfl, Option.not_isSome_iff_eq_none.mp fun hsome => ?_⟩
    have hfirst := hleft.mpr hsome
    rw [show mergeTo Stack.mappings base upper s = none from hmerge] at hfirst
    cases hfirst
  | some result =>
    obtain ⟨merged, t⟩ := result
    have hfirst : (mergeTo Stack.mappings base upper s).isSome = true := by
      rw [show mergeTo Stack.mappings base upper s = some (merged, t) from hmerge]
      rfl
    obtain ⟨⟨merged', t'⟩, hmerge'⟩ := Option.isSome_iff_exists.mp (hleft.mp hfirst)
    have hlaid := laid_of_mergeTo hmerge
    have hlaid' := laid_of_mergeTo hmerge'
    exact .inr ⟨merged, t, merged', t', rfl, hmerge', hlaid, hlaid',
      hlaid.alikeEntries hlaid' halike⟩

end Store

end Winnow
