/-
Winnow/Proofs/Store/MergeLaw.lean

The law of merging.

What comes of laying a mapping over another is said path by path (`LaidByPaths`), for keys of
all kinds and for mappings that share parts: what the upper mapping has there, the two values
merged, nothing, or what the lower mapping has.  At each level keys keep their order.

What is merged at one level may be merged when the store has grown already, and comes to the
same as before that (`exists_mergeTo_before`).  A mapping that is laid over itself looks as it
did (`Overlaid.viewTo_self`), by induction on how deep one looks.
-/
import Winnow.Proofs.Store.Alongside
import Winnow.Proofs.Store.OneWay
import Winnow.Proofs.Store.Overlaid
import Winnow.Proofs.Store.Places

namespace Winnow.Store

variable {s t s₁ t₁ u : Store} {i x y z : Item} {base upper merged : List (Value × Item)}
  {depth : Nat}

/-! ### What mappings look like -/

/-- What entries look like down to a depth. -/
def viewEntriesTo (s : Store) (n : Nat) (entries : List (Value × Item)) : List (Value × Value) :=
  entries.map fun (k, v) => (k, s.viewTo n v)

theorem viewTo_zero (h : s.entries? i = some base) : s.viewTo 0 i = .null := by
  obtain ⟨a, rfl, -⟩ := entries?_eq_some_iff.mp h
  rw [viewTo]

theorem viewTo_succ (h : s.entries? i = some base) (n : Nat) :
    s.viewTo (n + 1) i = .mapping (s.viewEntriesTo n base) := by
  obtain ⟨a, rfl, hcell⟩ := entries?_eq_some_iff.mp h
  rw [viewTo, hcell]
  rfl

theorem GrowsTo.viewTo_eq (h : s.GrowsTo t) (hs : s.Sound) (hi : s.Holds i) (n : Nat) :
    t.viewTo n i = s.viewTo n i :=
  Untouched.viewTo_eq hs hi (fun _ a c _ hc => h a c hc) n

theorem GrowsTo.viewEntriesTo_eq (h : s.GrowsTo t) (hs : s.Sound) (hbase : s.Fits (.mapping base))
    (n : Nat) : t.viewEntriesTo n base = s.viewEntriesTo n base :=
  List.map_congr_left fun e he => Prod.ext rfl (h.viewTo_eq hs ((fits_mapping.mp hbase).1 e he) n)

/-! ### Merging later -/

/-- **Merging after a store has grown** comes to what merging before comes to. -/
theorem exists_mergeTo_before (hs : s.Sound) (hgrows : s.GrowsTo s₁)
    (hbase : s.Fits (.mapping base)) (hupper : s.Fits (.mapping upper))
    (h : mergeTo depth base upper s₁ = some (merged, t₁)) :
    ∃ before t, mergeTo depth base upper s = some (before, t) ∧
      ∀ n, t₁.viewEntriesTo n merged = t.viewEntriesTo n before := by
  -- old cells are paired with themselves, and new ones behind either end, in order
  have htwins : Twins (Pairing.realigned Eq s.size s.size s₁.size) s s₁ :=
    (twins_refl s).realign hs (Nat.le_refl _) hgrows.size_le (fun _ _ _ _ => rfl)
      fun _ _ _ hb => hgrows.cell?_eq hb
  have hpaired {entries : List (Value × Item)} (hentries : s.Fits (.mapping entries)) :
      Entries.Paired (Pairing.realigned Eq s.size s.size s₁.size) entries entries :=
    List.forall₂_same.mpr fun e he => ⟨rfl, ((fits_mapping.mp hentries).1 e he).realigned
      (Item.paired_refl (fun _ => rfl) e.2)⟩
  rcases rel_cases (htwins.mergeTo depth (hpaired hbase) (hpaired hupper)) with
    ⟨-, hnone⟩ | ⟨⟨before, t⟩, _, hbefore, hafter, hentries, hdone⟩
  · rw [h] at hnone
    cases hnone
  · cases h.symm.trans hafter
    refine ⟨before, t, hbefore, fun n => Eq.symm ?_⟩
    rw [viewEntriesTo, viewEntriesTo]
    exact map_eq_of_forall₂ hentries fun h => Prod.ext h.1 (hdone.twins.viewTo_eq h.2 n)

/-- What two mappings are merged to at one place looks as what comes of merging these two. -/
theorem Overlaid.exists_mergeTo (h : Overlaid depth s t (some x) (some y) (some z))
    (hs : s.Sound) (hx : s.entries? x = some base) (hy : s.entries? y = some upper)
    (hz : t.entries? z = some merged) :
    ∃ before u, mergeTo depth base upper s = some (before, u) ∧
      ∀ n, t.viewEntriesTo n merged = u.viewEntriesTo n before := by
  obtain ⟨_, s₁, s₂, hz', hinner, hfirst, hsound, hlast⟩ := h.exists_merged hx hy
  cases hz.symm.trans hz'
  have hbase := hs.fits_entries hx
  have hupper := hs.fits_entries hy
  obtain ⟨-, hsound₂, hfits⟩ := (laid_of_mergeTo hinner).sound hsound
    (hbase.mono hfirst.size_le) (hupper.mono hfirst.size_le)
  obtain ⟨before, u, hbefore, hviews⟩ := exists_mergeTo_before hs hfirst hbase hupper hinner
  exact ⟨before, u, hbefore, fun n => (hlast.viewEntriesTo_eq hsound₂ hfits n).trans (hviews n)⟩

/-! ### Over nothing, and over itself -/

/-- Entries under keys that are not there are put behind those that are. -/
theorem mergeTo_append (h : Entries.DistinctKeys (base ++ upper)) :
    mergeTo (depth + 1) base upper s = some (base ++ upper, s) := by
  induction upper generalizing base with
  | nil =>
    rw [List.append_nil]
    rfl
  | cons e rest ih =>
    have hnew : ∀ f ∈ base, f.1.sameKey e.1 = false :=
      fun f hf => (List.pairwise_append.mp h).2.2 f hf e List.mem_cons_self
    have hnone : (Entries.find? e.1 base).bind s.entries? = none := by
      rw [Entries.find?_eq_none_iff.mpr hnew]
      rfl
    rw [mergeTo_cons_replace (.inl hnone), Entries.insert_of_forall_ne hnew]
    rw [List.append_cons] at h
    have hrest := ih h
    rwa [← List.append_cons] at hrest

theorem newKeys_self (h : Entries.AreKeyed base) : newKeys base base = [] := by
  refine List.filter_eq_nil_iff.mpr fun key hkey hnone => ?_
  obtain ⟨e, he, rfl⟩ := List.mem_map.mp hkey
  have hother := Entries.find?_eq_none_iff.mp (Option.isNone_iff_eq_none.mp hnone) e he
  rw [Value.sameKey_self (h e he)] at hother
  cases hother

/-- What is laid over itself is left alone, or is merged with itself under the keys that it has. -/
theorem Overlaid.self_cases (h : Overlaid depth s t (some x) (some x) (some z)) (hs : s.Sound)
    (hkeyed : s.Keyed) :
    z = x ∨ ∃ under inner, s.entries? x = some under ∧ t.entries? z = some inner ∧
      inner.map (·.1) = under.map (·.1) ∧
      ∀ key, key.isKey = true → Overlaid depth s t (Entries.find? key under)
        (Entries.find? key under) (Entries.find? key inner) := by
  cases hunder : s.entries? x with
  | none =>
    cases h with
    | replaced => exact .inl rfl
    | nested hunder' =>
      rw [hunder] at hunder'
      cases hunder'
  | some under =>
    obtain ⟨inner, hinner, -, hkeys, hbelow⟩ := h.level hs hkeyed hunder hunder
    rw [newKeys_self (hkeyed x under hunder), List.append_nil] at hkeys
    exact .inr ⟨under, inner, rfl, hinner, hkeys, hbelow⟩

/-- **What is laid over itself looks as before**, by induction on how deep one looks. -/
theorem Overlaid.viewTo_self (h : Overlaid depth s t (some x) (some x) (some z)) (hs : s.Sound)
    (hkeyed : s.Keyed) (hgrows : s.GrowsTo t) (hx : s.Holds x) (n : Nat) :
    t.viewTo n z = s.viewTo n x := by
  induction n generalizing x z with
  | zero =>
    rcases h.self_cases hs hkeyed with rfl | ⟨under, inner, hunder, hinner, -, -⟩
    · exact hgrows.viewTo_eq hs hx 0
    · rw [viewTo_zero hunder, viewTo_zero hinner]
  | succ n ih =>
    rcases h.self_cases hs hkeyed with rfl | ⟨under, inner, hunder, hinner, hkeys, hbelow⟩
    · exact hgrows.viewTo_eq hs hx (n + 1)
    · rw [viewTo_succ hunder, viewTo_succ hinner]
      have hfits := hs.fits_entries hunder
      refine congrArg Value.mapping (Eq.symm ?_)
      refine (hkeyed x under hunder).map_eq_map (hfits.distinct _ rfl) hkeys.symm ?_
      -- what is under a key is laid over itself again
      intro key v w hkey hv hw
      have hthere := hbelow key hkey
      rw [hv, hw] at hthere
      exact (ih hthere (hfits.holds_of_find? hv)).symm

/-! ### The law -/

/-- What laying the mapping `y` over the mapping `x` in a store comes to: `z` in another store,
where all that was there is what it was. -/
structure LaidByPaths (depth : Nat) (s : Store) (x y : Item) (t : Store) (z : Item) : Prop where
  grows : s.GrowsTo t
  /-- What the upper mapping has under a path is there, unless both have mappings there. -/
  replaced {path : List Value} {v : Item} : Value.areKeys path = true →
    s.under? y path = some v →
    ((s.under? x path).bind s.entries? = none ∨ s.entries? v = none) → t.under? z path = some v
  /-- Two mappings under a path are merged: there is what comes of merging these two, with the
  keys of the lower one, each at its place, before the new keys of the upper one. -/
  nested {path : List Value} {v w : Item} {under above : List (Value × Item)} :
    Value.areKeys path = true → s.under? x path = some v → s.under? y path = some w →
    s.entries? v = some under → s.entries? w = some above →
    ∃ m inner merged u, t.under? z path = some m ∧ t.entries? m = some inner ∧
      mergeTo depth under above s = some (merged, u) ∧
      (∀ n, t.viewEntriesTo n inner = u.viewEntriesTo n merged) ∧
      inner.map (·.1) = under.map (·.1) ++ newKeys under above ∧ Entries.DistinctKeys inner
  /-- Nothing is behind what is no mapping in the upper one. -/
  cutOff {path : List Value} : Value.areKeys path = true → s.CutOff y path →
    t.under? z path = none
  /-- All else is what the lower mapping has. -/
  kept {path : List Value} : Value.areKeys path = true → s.under? y path = none →
    ¬ s.CutOff y path → t.under? z path = s.under? x path

/-- **The law by paths**: under each path is what `Overlaid` says. -/
theorem Overlaid.laidByPaths (h : Overlaid depth s t (some x) (some y) (some z)) (hs : s.Sound)
    (hkeyed : s.Keyed) (hgrows : s.GrowsTo t) (hx : s.Holds x) (hy : s.Holds y) :
    LaidByPaths depth s x y t z := by
  have hcases {path : List Value} (hpath : Value.areKeys path = true) :=
    h.along hs hkeyed hgrows hx hy (Value.areKeys_iff.mp hpath)
  have hthere {path : List Value} (hpath : Value.areKeys path = true) (hcut : ¬ s.CutOff y path) :
      Overlaid depth s t (s.under? x path) (s.under? y path) (t.under? z path) :=
    ((hcases hpath).resolve_left fun hno => hcut hno.1).2
  have hopen {path : List Value} {v : Item} (hv : s.under? y path = some v) :
      ¬ s.CutOff y path := fun hcut => by
    rw [hcut.under?_eq_none] at hv
    cases hv
  refine ⟨hgrows, fun hpath hv hcond => ?_, fun hpath hv hw hunder habove => ?_,
    fun hpath hcut => ?_, fun hpath hnone hcut => ?_⟩
  · have hplace := hthere hpath (hopen hv)
    rw [hv] at hplace
    exact hplace.eq_of_not_merged hcond
  · have hplace := hthere hpath (hopen hw)
    rw [hv, hw] at hplace
    obtain ⟨m, hm⟩ := hplace.exists_eq_some
    rw [hm] at hplace
    obtain ⟨inner, hinner, hdistinct, hkeys, -⟩ := hplace.level hs hkeyed hunder habove
    obtain ⟨merged, u, hmerge, hviews⟩ := hplace.exists_mergeTo hs hunder habove hinner
    exact ⟨m, inner, merged, u, hm, hinner, hmerge, hviews, hkeys, hdistinct⟩
  · exact ((hcases hpath).resolve_right fun hno => hno.1 hcut).2
  · have hplace := hthere hpath hcut
    rw [hnone] at hplace
    exact hplace.eq_of_none

/-- The roots of two mappings that are merged. -/
theorem overlaid_roots (hs : s.Sound) (hx : s.entries? x = some base)
    (hy : s.entries? y = some upper) (h : mergeTo depth base upper s = some (merged, u))
    (hgrows : u.GrowsTo t) (hz : t.entries? z = some merged) :
    s.GrowsTo t ∧ Overlaid depth s t (some x) (some y) (some z) :=
  ⟨((laid_of_mergeTo h).sound hs (hs.fits_entries hx) (hs.fits_entries hy)).1.trans hgrows,
    .nested hx hy (.refl s) hs h hgrows hz⟩

theorem viewEntriesTo_self (hs : s.Sound) (hkeyed : s.Keyed) (hx : s.entries? x = some base)
    (h : mergeTo depth base base s = some (merged, u)) (n : Nat) :
    u.viewEntriesTo n merged = s.viewEntriesTo n base := by
  have hbase := hs.fits_entries hx
  obtain ⟨-, hu, hmerged⟩ := (laid_of_mergeTo h).sound hs hbase hbase
  obtain ⟨hgrows, hroots⟩ := overlaid_roots hs hx hx h (growsTo_add u _) entries?_add
  have hviews := hroots.viewTo_self hs hkeyed hgrows (holds_of_entries? hx) (n + 1)
  rw [viewTo_succ hx, viewTo_succ entries?_add, (growsTo_add u _).viewEntriesTo_eq hu hmerged]
    at hviews
  exact Value.mapping.inj hviews

/-- **The law of merging** within any depth (`merge` is merging within `Stack.mappings`).  What
nests within the depth is merged.  What comes of it, as a mapping in any later store, is said
path by path.  Entries laid over none, or with none laid over them, stay as they are, and those laid
over themselves look as before, however deep one looks. -/
theorem mergeTo_laidByPaths (hs : s.Sound) (hkeyed : s.Keyed) (hx : s.entries? x = some base)
    (hy : s.entries? y = some upper) (depth : Nat) :
    (s.NestsWithin (depth + 1) y →
      ∃ merged u, mergeTo (depth + 1) base upper s = some (merged, u)) ∧
    (∀ merged u t z, mergeTo (depth + 1) base upper s = some (merged, u) → u.GrowsTo t →
      t.entries? z = some merged → LaidByPaths (depth + 1) s x y t z) ∧
    mergeTo (depth + 1) [] upper s = some (upper, s) ∧
    mergeTo (depth + 1) base [] s = some (base, s) ∧
    (s.NestsWithin (depth + 1) x → ∃ merged u,
      mergeTo (depth + 1) base base s = some (merged, u) ∧
        ∀ n, u.viewEntriesTo n merged = s.viewEntriesTo n base) := by
  have hbase := hs.fits_entries hx
  have hupper := hs.fits_entries hy
  refine ⟨fun hnests => exists_mergeTo hs hbase hupper (hnests upper hy),
    fun merged u t z h hgrows hz => ?_, mergeTo_append (hupper.distinct _ rfl), rfl,
    fun hnests => ?_⟩
  · obtain ⟨hgrows, hroots⟩ := overlaid_roots hs hx hy h hgrows hz
    exact hroots.laidByPaths hs hkeyed hgrows (holds_of_entries? hx) (holds_of_entries? hy)
  · obtain ⟨merged, u, h⟩ := exists_mergeTo hs hbase hbase (hnests base hx)
    exact ⟨merged, u, h, viewEntriesTo_self hs hkeyed hx h⟩

/-- Two sections of a log (0 and 1), and what they are sections of (2 and 3).  The two have one
key in common, a whole number and a truth value. -/
def sections : Store :=
  ⟨#[.mapping [(.text "level", .scalar (.text "INFO")), (.scalar (.integer 1), .null)],
    .mapping [(.scalar (.truth true), .scalar (.integer 7)), (.text "file", .null)],
    .mapping [(.text "log", .object 0), (.text "filters", .object 0)],
    .mapping [(.text "filters", .null), (.text "log", .object 1)]], 1⟩

theorem sound_sections : sections.Sound := by
  have hpair {e f : Value × Item} (he : sections.Holds e.2) (hf : sections.Holds f.2)
      (h : e.1.sameKey f.1 = false) : sections.Fits (.mapping [e, f]) :=
    fits_mapping.mpr ⟨List.forall_mem_cons.mpr ⟨he, List.forall_mem_singleton.mpr hf⟩,
      List.pairwise_pair.mpr h⟩
  rintro (_ | _ | _ | _ | a) c hc <;> cases hc
  · exact hpair trivial trivial rfl
  · exact hpair trivial trivial rfl
  · exact hpair (Nat.lt_add_left 3 Nat.zero_lt_one) (Nat.lt_add_left 3 Nat.zero_lt_one) rfl
  · exact hpair trivial (Nat.lt_add_left 2 Nat.one_lt_two) rfl

theorem keyed_sections : sections.Keyed := by
  intro i entries h
  obtain ⟨a, rfl, hcell⟩ := entries?_eq_some_iff.mp h
  have hpair {e f : Value × Item} (he : e.1.isKey = true) (hf : f.1.isKey = true) :
      Entries.AreKeyed [e, f] :=
    List.forall_mem_cons.mpr ⟨he, List.forall_mem_singleton.mpr hf⟩
  rcases a with _ | _ | _ | _ | a <;> cases hcell
  · exact hpair rfl rfl
  · exact hpair rfl rfl
  · exact hpair rfl rfl
  · exact hpair rfl rfl

theorem nestsWithin_sections :
    sections.NestsWithin 2 (.object 2) ∧ sections.NestsWithin 2 (.object 3) := by
  have hpair {i : Item} {e f : Value × Item} {n : Nat} (hi : sections.entries? i = some [e, f])
      (he : sections.NestsWithin n e.2) (hf : sections.NestsWithin n f.2) :
      sections.NestsWithin (n + 1) i :=
    nestsWithin_of_entries hi (List.forall_mem_cons.mpr ⟨he, List.forall_mem_singleton.mpr hf⟩)
  have hlower : sections.NestsWithin 1 (.object 0) := hpair rfl rfl rfl
  have hupper : sections.NestsWithin 1 (.object 1) := hpair rfl rfl rfl
  exact ⟨hpair rfl hlower hlower, hpair rfl (nestsWithin_of_not_mapping rfl 1) hupper⟩

/-- The upper sections are merged with the lower ones, and these with themselves. -/
theorem mergeTo_laidByPaths_sections :
    ∃ base upper, sections.entries? (.object 2) = some base ∧
      sections.entries? (.object 3) = some upper ∧
      (∃ merged u, mergeTo 2 base upper sections = some (merged, u) ∧
        ∀ t z, u.GrowsTo t → t.entries? z = some merged →
          t.find? z ["log", "level"] = some (.scalar (.text "INFO")) ∧
          t.find? z ["log", "file"] = some .null ∧
          t.under? z [.text "log", .scalar (.integer 1)] = some (.scalar (.integer 7)) ∧
          t.find? z ["filters", "level"] = none ∧
          merged.map (·.1) = [.text "log", .text "filters"]) ∧
      mergeTo 2 [] upper sections = some (upper, sections) ∧
      mergeTo 2 base [] sections = some (base, sections) ∧
      ∃ merged u, mergeTo 2 base base sections = some (merged, u) ∧
        ∀ n, u.viewEntriesTo n merged = sections.viewEntriesTo n base := by
  obtain ⟨hexists, hlaw, hunder, hover, hself⟩ :=
    mergeTo_laidByPaths (x := .object 2) (y := .object 3) sound_sections keyed_sections rfl rfl 1
  obtain ⟨merged, u, hmerge⟩ := hexists nestsWithin_sections.2
  refine ⟨_, _, rfl, rfl, ⟨merged, u, hmerge, fun t z hgrows hz => ?_⟩, hunder, hover,
    hself nestsWithin_sections.1⟩
  have hpaths := hlaw merged u t z hmerge hgrows hz
  have hopen : ¬ sections.CutOff (.object 3) ([.text "log"] ++ [.text "level"]) :=
    not_cutOff_append_key rfl rfl
  have hcut : sections.CutOff (.object 3) [.text "filters", .text "level"] :=
    ⟨[.text "filters"], .null, ⟨[.text "level"], rfl⟩, nofun, rfl, rfl⟩
  have hroot : Value.areKeys [] = true := rfl
  obtain ⟨m, inner, -, -, hm, hinner, -, -, hkeys, -⟩ := hpaths.nested hroot rfl rfl rfl rfl
  cases hm
  cases hz.symm.trans hinner
  rw [find?_eq_under?, find?_eq_under?, find?_eq_under?]
  exact ⟨hpaths.kept rfl rfl hopen, hpaths.replaced rfl rfl (.inr rfl),
    hpaths.replaced rfl rfl (.inr rfl), hpaths.cutOff rfl hcut, hkeys⟩

end Winnow.Store
