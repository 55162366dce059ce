/-
Winnow/Proofs/Store/Overlaid.lean

What comes of merging, at the end of a path of keys.

Keys of mappings may be of any kind, and so may those on a path (`under?`).  A path of
texts leads to what `find?` finds (`find?_eq_under?`).

`Overlaid depth s t x y z` relates what is found at one place: in the lower mapping (`x`),
in the upper one (`y`) and in what comes of merging them within a depth (`z`).  It holds under
each key of entries that are merged (`overlaid_key`), by induction on the upper entries; so it
goes on from one level to the next (`Overlaid.level`), and along each path
(`Overlaid.along`), unless something on the way of the upper mapping is no mapping
(`CutOff`).  Then nothing is left behind it.
-/
import Mathlib.Data.List.Induction
import Winnow.Proofs.Store.Merging
import Winnow.Proofs.Value.Keys

namespace Winnow.Store

variable {s t s₁ t₁ : Store} {i x y z : Item} {base upper merged : List (Value × Item)}
  {depth : Nat} {path : List Value} {key : Value}

/-! ### Paths of keys -/

/-- In all mappings of a store there are keys only. -/
def Keyed (s : Store) : Prop := ∀ i entries, s.entries? i = some entries → Entries.AreKeyed entries

/-- The item under a path of keys of any kind. -/
def under? (s : Store) (i : Item) : (path : List Value) → Option Item
  | [] => some i
  | key :: rest => ((s.entries? i).bind (Entries.find? key)).bind fun next => s.under? next rest

/-- A path of texts leads to what is found under it. -/
theorem find?_eq_under? (s : Store) (i : Item) (path : List String) :
    s.find? i path = s.under? i (path.map Value.text) := by
  induction path generalizing i with
  | nil => rfl
  | cons key rest ih =>
    rw [find?_cons, List.map_cons, under?]
    simp only [ih]

theorem under?_append_key :
    s.under? i (path ++ [key])
      = ((s.under? i path).bind s.entries?).bind (Entries.find? key) := by
  induction path generalizing i with
  | nil => cases h : (s.entries? i).bind (Entries.find? key) <;> simp [under?, h]
  | cons k rest ih =>
    rw [List.cons_append, under?, under?]
    cases (s.entries? i).bind (Entries.find? k) with
    | none => rfl
    | some next => exact ih

theorem Sound.holds_of_under? (hs : s.Sound) (hi : s.Holds i) (h : s.under? i path = some x) :
    s.Holds x := by
  induction path generalizing i with
  | nil =>
    cases h
    exact hi
  | cons k rest ih =>
    obtain ⟨next, hnext, h⟩ := Option.bind_eq_some_iff.mp h
    obtain ⟨entries, hentries, hfind⟩ := Option.bind_eq_some_iff.mp hnext
    exact ih ((hs.fits_entries hentries).holds_of_find? hfind) h

/-! ### One place -/

/-- What is found at one place in two mappings, and in what comes of merging them within a
depth. -/
inductive Overlaid (depth : Nat) (s t : Store) : (lower upper merged : Option Item) → Prop
  /-- The upper mapping has nothing there. -/
  | kept (x : Option Item) : Overlaid depth s t x none x
  /-- The upper mapping has something there that is not merged. -/
  | replaced {x : Option Item} {y : Item} : (x.bind s.entries? = none ∨ s.entries? y = none) →
      Overlaid depth s t x (some y) (some y)
  /-- Both have a mapping there, and the two are merged. -/
  | nested {x y z : Item} {under above inner : List (Value × Item)} {s₁ s₂ : Store} :
      s.entries? x = some under → s.entries? y = some above → s.GrowsTo s₁ → s₁.Sound →
      mergeTo depth under above s₁ = some (inner, s₂) → s₂.GrowsTo t →
      t.entries? z = some inner → Overlaid depth s t (some x) (some y) (some z)

namespace Overlaid

variable {lower found above : Option Item}

/-- What the upper mapping does not have is kept. -/
theorem eq_of_none (h : Overlaid depth s t lower none found) : found = lower := by
  cases h
  rfl

/-- What the upper mapping has is there, if it is not merged. -/
theorem eq_of_not_merged {v : Item} (h : Overlaid depth s t lower (some v) found)
    (hcond : lower.bind s.entries? = none ∨ s.entries? v = none) : found = some v := by
  cases h with
  | replaced => rfl
  | nested hunder habove =>
    rw [Option.bind_some, hunder, habove] at hcond
    rcases hcond with hcond | hcond <;> cases hcond

/-- Where the upper mapping has something, something is left. -/
theorem exists_eq_some {v : Item} (h : Overlaid depth s t lower (some v) found) :
    ∃ m, found = some m := by
  cases h with
  | replaced => exact ⟨v, rfl⟩
  | nested => exact ⟨_, rfl⟩

/-- Two mappings at one place are merged, maybe when the store has grown already. -/
theorem exists_merged {under upper : List (Value × Item)}
    (h : Overlaid depth s t (some x) (some y) (some z)) (hx : s.entries? x = some under)
    (hy : s.entries? y = some upper) :
    ∃ inner s₁ s₂, t.entries? z = some inner ∧ mergeTo depth under upper s₁ = some (inner, s₂) ∧
      s.GrowsTo s₁ ∧ s₁.Sound ∧ s₂.GrowsTo t := by
  cases h with
  | replaced hcond =>
    rw [Option.bind_some, hx, hy] at hcond
    rcases hcond with hcond | hcond <;> cases hcond
  | nested hx' hy' hfirst hsound hinner hlast hfresh =>
    cases hx.symm.trans hx'
    cases hy.symm.trans hy'
    exact ⟨_, _, _, hfresh, hinner, hfirst, hsound, hlast⟩

theorem succ (h : Overlaid depth s t lower above found) :
    Overlaid (depth + 1) s t lower above found := by
  cases h with
  | kept => exact .kept _
  | replaced hcond => exact .replaced hcond
  | nested hunder habove hfirst hsound hinner hlast hfresh =>
    exact .nested hunder habove hfirst hsound (mergeTo_succ hinner) hlast hfresh

/-- It is the same for a store before and one after. -/
theorem widen (h : Overlaid depth s₁ t₁ lower above found) (hfirst : s.GrowsTo s₁)
    (hlast : t₁.GrowsTo t) (hlower : ∀ x, lower = some x → s.Holds x)
    (habove : ∀ y, above = some y → s.Holds y) : Overlaid depth s t lower above found := by
  cases h with
  | kept => exact .kept _
  | @replaced _ y hcond =>
    rw [hfirst.entries?_eq (habove y rfl)] at hcond
    refine .replaced (hcond.imp_left fun hnone => ?_)
    cases lower with
    | none => rfl
    | some x => exact (hfirst.entries?_eq (hlower x rfl)).symm.trans hnone
  | @nested x y z under above inner s₂ t₂ hx hy hgrows hsound hinner hgrows' hz =>
    rw [hfirst.entries?_eq (hlower x rfl)] at hx
    rw [hfirst.entries?_eq (habove y rfl)] at hy
    exact .nested hx hy (hfirst.trans hgrows) hsound hinner (hgrows'.trans hlast)
      (hlast.entries?_of_eq_some hz)

end Overlaid

/-! ### One key -/

/-- **Under each key** of entries that are merged, by induction on the upper ones: only one of
them is under a key that is the same, for those behind it are under others. -/
theorem overlaid_key (h : mergeTo (depth + 1) base upper s = some (merged, t)) (hs : s.Sound)
    (hbase : s.Fits (.mapping base)) (hupper : s.Fits (.mapping upper))
    (hbaseKeys : Entries.AreKeyed base) (hupperKeys : Entries.AreKeyed upper)
    (hkey : key.isKey = true) :
    Overlaid depth s t (Entries.find? key base) (Entries.find? key upper)
      (Entries.find? key merged) := by
  induction upper generalizing s base with
  | nil =>
    cases h
    exact .kept _
  | cons e rest ih =>
    obtain ⟨k, value⟩ := e
    have hk : k.isKey = true := hupperKeys.head
    obtain ⟨hvalue, hrest⟩ := fits_cons hupper
    have htail (hsame : k.sameKey key = true) : Entries.find? key rest = none :=
      hupperKeys.find?_tail hkey (hupper.distinct _ rfl) hsame
    rcases mergeTo_cons_cases h with
      ⟨hcond, h⟩ | ⟨under, above, inner, u, hunder, habove, hinner, h⟩
    · have hnext := ih h hs (hbase.insert k hvalue) hrest (hbaseKeys.insert hk value)
        hupperKeys.tail
      cases hsame : k.sameKey key with
      | true =>
        -- no other upper entry is under the key, so this one is kept
        rw [htail hsame, hbaseKeys.find?_insert hk hkey hsame] at hnext
        rw [Entries.find?_of_same (e := (k, value)) hsame, hnext.eq_of_none,
          ← hbaseKeys.find?_congr hk hkey hsame]
        exact .replaced hcond
      | false =>
        rw [hbaseKeys.find?_insert_other hk hkey hsame] at hnext
        rw [Entries.find?_of_not_same (e := (k, value)) hsame]
        exact hnext
    · obtain ⟨hgrows, hu, hfits⟩ :=
        (laid_of_mergeTo hinner).sound hs (hs.fits_under hunder) (hs.fits_entries habove)
      have hstep : s.GrowsTo (u.add (.mapping inner)).2 := hgrows.trans (growsTo_add u _)
      have hbase' := (hbase.mono hstep.size_le).insert k (holds_add (s := u) (c := .mapping inner))
      have hrest' := hrest.mono hstep.size_le
      have hnext := ih h (hu.add hfits) hbase' hrest' (hbaseKeys.insert hk _) hupperKeys.tail
      cases hsame : k.sameKey key with
      | true =>
        rw [htail hsame, hbaseKeys.find?_insert hk hkey hsame] at hnext
        rw [hbaseKeys.find?_congr hk hkey hsame] at hunder
        obtain ⟨x, hx, hxUnder⟩ := Option.bind_eq_some_iff.mp hunder
        rw [Entries.find?_of_same (e := (k, value)) hsame, hnext.eq_of_none, hx]
        have hlast := ((laid_of_mergeTo h).sound (hu.add hfits) hbase' hrest').1
        exact .nested hxUnder habove (.refl s) hs hinner ((growsTo_add u _).trans hlast)
          (hlast.entries?_of_eq_some entries?_add)
      | false =>
        rw [hbaseKeys.find?_insert_other hk hkey hsame] at hnext
        rw [Entries.find?_of_not_same (e := (k, value)) hsame]
        exact hnext.widen hstep (.refl t) (fun _ hx => hbase.holds_of_find? hx)
          fun _ hy => hrest.holds_of_find? hy

/-! ### One level -/

/-- The keys of the upper entries that the entries below do not have, in their order. -/
def newKeys (base upper : List (Value × Item)) : List Value :=
  (upper.map (·.1)).filter fun key => (Entries.find? key base).isNone

/-- The first of the upper keys is new, or is there. -/
theorem keys_insert_append {value : Item} {rest : List (Value × Item)}
    (hdistinct : Entries.DistinctKeys ((key, value) :: rest)) (i : Item) :
    (Entries.insert key i base).map (·.1) ++ newKeys (Entries.insert key i base) rest
      = base.map (·.1) ++ newKeys base ((key, value) :: rest) := by
  have hrest : newKeys (Entries.insert key i base) rest = newKeys base rest := by
    refine List.filter_congr fun k hk => ?_
    obtain ⟨e, he, rfl⟩ := List.mem_map.mp hk
    exact Entries.isNone_find?_insert ((List.pairwise_cons.mp hdistinct).1 e he)
  rw [hrest, Entries.keys_insert, List.append_assoc]
  unfold newKeys
  rw [List.map_cons, List.filter_cons]
  cases Entries.find? key base <;> rfl

/-- **Keys keep their order**: first all those below, then the new ones. -/
theorem Laid.keys (h : Laid s base upper t merged) (hdistinct : Entries.DistinctKeys upper) :
    merged.map (·.1) = base.map (·.1) ++ newKeys base upper := by
  induction h with
  | done => exact (List.append_nil _).symm
  | replace _ _ ih => rw [ih hdistinct.tail, keys_insert_append hdistinct]
  | nest _ _ _ _ _ ih => rw [ih hdistinct.tail, keys_insert_append hdistinct]

/-- **One level of mappings that are merged**: its keys, and what is under each of them. -/
theorem Overlaid.level {under above : List (Value × Item)}
    (h : Overlaid depth s t (some x) (some y) (some z)) (hs : s.Sound) (hkeyed : s.Keyed)
    (hunder : s.entries? x = some under) (habove : s.entries? y = some above) :
    ∃ inner, t.entries? z = some inner ∧ Entries.DistinctKeys inner ∧
      inner.map (·.1) = under.map (·.1) ++ newKeys under above ∧
      ∀ key, key.isKey = true → Overlaid depth s t (Entries.find? key under)
        (Entries.find? key above) (Entries.find? key inner) := by
  obtain ⟨inner, s₁, s₂, hz, hinner, hfirst, hsound, hlast⟩ := h.exists_merged hunder habove
  have hunderFits := hs.fits_entries hunder
  have haboveFits := hs.fits_entries habove
  have hlaid := laid_of_mergeTo hinner
  have hfits := (hlaid.sound hsound (hunderFits.mono hfirst.size_le)
    (haboveFits.mono hfirst.size_le)).2.2
  refine ⟨inner, hz, hfits.distinct _ rfl, hlaid.keys (haboveFits.distinct _ rfl),
    fun key hkey => ?_⟩
  cases depth with
  | zero => cases hinner
  | succ depth =>
    have hkeyLaid := overlaid_key hinner hsound (hunderFits.mono hfirst.size_le)
      (haboveFits.mono hfirst.size_le) (hkeyed x under hunder) (hkeyed y above habove) hkey
    exact (hkeyLaid.widen hfirst hlast (fun _ hi => hunderFits.holds_of_find? hi)
      fun _ hi => haboveFits.holds_of_find? hi).succ

/-! ### Paths -/

/-- Something on the way along a path, before its end, is no mapping. -/
def CutOff (s : Store) (i : Item) (path : List Value) : Prop :=
  ∃ before w, before <+: path ∧ before ≠ path ∧ s.under? i before = some w ∧ s.entries? w = none

/-- A path with one more key is cut off before its last key or by what the key is looked for
in. -/
theorem cutOff_append_key_iff : s.CutOff i (path ++ [key]) ↔
    s.CutOff i path ∨ ∃ w, s.under? i path = some w ∧ s.entries? w = none := by
  constructor
  · rintro ⟨before, w, hbefore, hne, hw, hnone⟩
    have hshort : before <+: path := (List.prefix_concat_iff.mp hbefore).resolve_left hne
    by_cases heq : before = path
    · exact .inr ⟨w, heq ▸ hw, hnone⟩
    · exact .inl ⟨before, w, hshort, heq, hw, hnone⟩
  · rintro (⟨before, w, hbefore, -, hw, hnone⟩ | ⟨w, hw, hnone⟩)
    · refine ⟨before, w, hbefore.trans (List.prefix_append _ _), ?_, hw, hnone⟩
      rintro rfl
      exact absurd hbefore.length_le (by rw [List.length_append]; exact Nat.not_succ_le_self _)
    · exact ⟨path, w, List.prefix_append _ _, by simp, hw, hnone⟩

/-- Behind something that is no mapping there is nothing. -/
theorem CutOff.under?_eq_none (h : s.CutOff i path) : s.under? i path = none := by
  induction path using List.reverseRecOn with
  | nil =>
    obtain ⟨before, w, hbefore, hne, -⟩ := h
    exact absurd (List.prefix_nil.mp hbefore) hne
  | append_singleton path key ih =>
    rw [under?_append_key]
    rcases cutOff_append_key_iff.mp h with h | ⟨w, hw, hnone⟩
    · rw [ih h]
      rfl
    · rw [hw, Option.bind_some, hnone]
      rfl

/-- A path is not cut off where there is a mapping to look for its last key in. -/
theorem not_cutOff_append_key {w : Item} {entries : List (Value × Item)}
    (hw : s.under? i path = some w) (hentries : s.entries? w = some entries) :
    ¬ s.CutOff i (path ++ [key]) := by
  rw [cutOff_append_key_iff]
  rintro (hcut | ⟨_, hthere, hnone⟩)
  · rw [hcut.under?_eq_none] at hw
    cases hw
  · cases hw.symm.trans hthere
    rw [hnone] at hentries
    cases hentries

/-- One key further, behind what is found at one place. -/
theorem Overlaid.next {lower upper merged : Option Item}
    (h : Overlaid depth s t lower upper merged) (hs : s.Sound) (hkeyed : s.Keyed)
    (hgrows : s.GrowsTo t) (hlower : ∀ i, lower = some i → s.Holds i)
    (hupper : ∀ i, upper = some i → s.Holds i) (hkey : key.isKey = true) :
    ((∃ w, upper = some w ∧ s.entries? w = none) ∧
      (merged.bind t.entries?).bind (Entries.find? key) = none) ∨
    ((¬ ∃ w, upper = some w ∧ s.entries? w = none) ∧
      Overlaid depth s t ((lower.bind s.entries?).bind (Entries.find? key))
        ((upper.bind s.entries?).bind (Entries.find? key))
        ((merged.bind t.entries?).bind (Entries.find? key))) := by
  cases h with
  | kept =>
    refine .inr ⟨?_, ?_⟩
    · rintro ⟨w, hw, -⟩
      cases hw
    · have hsame : lower.bind t.entries? = lower.bind s.entries? := by
        cases lower with
        | none => rfl
        | some i => exact hgrows.entries?_eq (hlower i rfl)
      rw [hsame]
      exact .kept _
  | @replaced _ w hcond =>
    rw [Option.bind_some, Option.bind_some, hgrows.entries?_eq (hupper w rfl)]
    cases hw : s.entries? w with
    | none => exact .inl ⟨⟨w, rfl, hw⟩, rfl⟩
    | some above =>
      refine .inr ⟨?_, ?_⟩
      · rintro ⟨_, ⟨⟩, hnone⟩
        rw [hw] at hnone
        cases hnone
      -- a mapping took the place of what is none, and hides nothing
      · have hnone := hcond.resolve_right (by rw [hw]; exact Option.some_ne_none _)
        rw [hnone, Option.bind_some]
        cases Entries.find? key above with
        | none => exact .kept none
        | some j => exact .replaced (.inl rfl)
  | @nested v w m under above inner s₁ s₂ hunder habove hfirst hsound hinner hlast hfresh =>
    obtain ⟨entries, hentries, -, -, hbelow⟩ :=
      (Overlaid.nested hunder habove hfirst hsound hinner hlast hfresh).level hs hkeyed hunder
        habove
    refine .inr ⟨?_, ?_⟩
    · rintro ⟨_, ⟨⟩, hnone⟩
      rw [habove] at hnone
      cases hnone
    · rw [Option.bind_some, Option.bind_some, Option.bind_some, hunder, habove, hentries]
      exact hbelow key hkey

/-- **Under each path** of keys in mappings that are merged, by induction on its last key. -/
theorem Overlaid.along (h : Overlaid depth s t (some x) (some y) (some z)) (hs : s.Sound)
    (hkeyed : s.Keyed) (hgrows : s.GrowsTo t) (hx : s.Holds x) (hy : s.Holds y)
    (hpath : ∀ key ∈ path, key.isKey = true) :
    (s.CutOff y path ∧ t.under? z path = none) ∨
    (¬ s.CutOff y path ∧
      Overlaid depth s t (s.under? x path) (s.under? y path) (t.under? z path)) := by
  induction path using List.reverseRecOn with
  | nil =>
    refine .inr ⟨?_, h⟩
    rintro ⟨before, w, hbefore, hne, -⟩
    exact hne (List.prefix_nil.mp hbefore)
  | append_singleton path key ih =>
    have hkey : key.isKey = true := hpath key List.mem_concat_self
    rw [under?_append_key, under?_append_key, under?_append_key, cutOff_append_key_iff]
    rcases ih fun k hk => hpath k (List.mem_append_left _ hk) with ⟨hcut, hnone⟩ | ⟨hcut, hthere⟩
    · exact .inl ⟨.inl hcut, by rw [hnone]; rfl⟩
    · rcases hthere.next hs hkeyed hgrows (fun _ hi => hs.holds_of_under? hx hi)
        (fun _ hi => hs.holds_of_under? hy hi) hkey with ⟨hcut', hnone⟩ | ⟨hcut', hnext⟩
      · exact .inl ⟨.inr hcut', hnone⟩
      · exact .inr ⟨not_or.mpr ⟨hcut, hcut'⟩, hnext⟩

end Winnow.Store
