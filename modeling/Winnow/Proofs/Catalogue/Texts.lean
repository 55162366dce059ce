/-
Winnow/Proofs/Catalogue/Texts.lean

Stored values that are made of texts.

A definition is made of texts, lists, and mappings that have texts for keys (`OfTexts`), so
it holds nothing that could not be written in a message (`isWritable_of_ofTexts`).  All that
is reached from such a value is made of texts as well, by the walk over its parts
(`forall_mem_reached`).  And it nests no deeper than one mapping, as the steps are in a list
(`nestsWithin_of_isDefinition`).
-/
import Winnow.Proofs.Catalogue.Sections
import Winnow.Proofs.Store.Copying
import Winnow.Proofs.Store.OneWay

namespace Winnow

open Shaped (shape)

namespace Stored

open Store (cellIsWritable)

variable {s : Store} {i : Item} {a : Nat} {c : Cell} {x : Stored}

/-- A value is a text, or a list or a mapping of such values, where the keys are texts. -/
inductive OfTexts : Stored → Prop
  | text {x : Stored} {t : String} : shape x = .scalar (.text t) → OfTexts x
  | list {x : Stored} {items : List Stored} : shape x = .list items →
      (∀ v ∈ items, OfTexts v) → OfTexts x
  | mapping {x : Stored} {entries : List (Value × Stored)} : shape x = .mapping entries →
      (∀ e ∈ entries, ∃ k, e.1 = .text k) → (∀ e ∈ entries, OfTexts e.2) → OfTexts x

/-! ### Writing them -/

theorem OfTexts.scalar (h : OfTexts ⟨s, i⟩) : i.scalar?.all Scalar.isWritable = true := by
  cases i with
  | object a => rfl
  | scalar y =>
    cases h with
    | text hshape =>
      cases hshape
      rfl
    | list hshape => cases hshape
    | mapping hshape => cases hshape

theorem shape_object (hc : s.cell? a = some c) : shape (⟨s, .object a⟩ : Stored) = match c with
    | .list items => .list (items.map (other ⟨s, .object a⟩))
    | .tuple items => .tuple (items.map (other ⟨s, .object a⟩))
    | .mapping entries => .mapping (entries.map fun e => (e.1, other ⟨s, .object a⟩ e.2))
    | .set members => .set members := by
  show Stored.shape ⟨s, .object a⟩ = _
  unfold Stored.shape
  simp only [hc]
  cases c <;> rfl

/-- A cell of texts can be written, and its items are made of texts. -/
theorem OfTexts.cell (h : OfTexts ⟨s, .object a⟩) (hc : s.cell? a = some c) :
    cellIsWritable c = true ∧ ∀ j ∈ c.items, OfTexts ⟨s, j⟩ := by
  have hshape := shape_object hc
  cases h with
  | text hseen =>
    rw [hshape] at hseen
    cases c <;> cases hseen
  | list hseen hitems =>
    rw [hshape] at hseen
    cases c <;> cases hseen
    have hall := List.forall_mem_map.mp hitems
    exact ⟨List.all_eq_true.mpr fun j hj => (hall j hj).scalar, hall⟩
  | mapping hseen hkeys hvalues =>
    rw [hshape] at hseen
    cases c <;> cases hseen
    have hall := List.forall_mem_map.mp hvalues
    refine ⟨List.all_eq_true.mpr ?_, List.forall_mem_map.mpr hall⟩
    rintro ⟨key, j⟩ he
    obtain ⟨k, rfl⟩ := List.forall_mem_map.mp hkeys _ he
    exact (hall _ he).scalar

theorem item_of_shape_text {t : String} (h : shape (⟨s, i⟩ : Stored) = .scalar (.text t)) :
    i = .scalar (.text t) := by
  cases i with
  | scalar y =>
    cases h
    rfl
  | object a =>
    cases hc : s.cell? a with
    | some c =>
      rw [shape_object hc] at h
      cases c <;> cases h
    | none =>
      have h : Stored.shape ⟨s, .object a⟩ = .scalar (.text t) := h
      unfold Stored.shape at h
      simp only [hc] at h
      cases h

/-- **What is made of texts can be written in a message.** -/
theorem isWritable_of_ofTexts (h : x.OfTexts) : Shaped.isWritable x = true := by
  obtain ⟨s, i⟩ := x
  have hreached : ∀ a ∈ s.reached i, OfTexts ⟨s, .object a⟩ := by
    refine Store.forall_mem_reached (fun a ha b hb => ?_) fun a hi => hi ▸ h
    obtain ⟨c, hc, hmem⟩ := Store.exists_of_mem_partsAt hb
    exact (ha.cell hc).2 _ hmem
  refine Bool.and_eq_true_iff.mpr ⟨h.scalar, List.all_eq_true.mpr fun a ha => ?_⟩
  exact (Option.all_eq_true _ _).mpr fun c hc => ((hreached a ha).cell hc).1

/-! ### Definitions are made of texts -/

theorem ofTexts_of_isLiterals {texts : List String} (h : IsLiterals x texts) : x.OfTexts := by
  cases h with
  | single hx => exact .text hx
  | several hx hitems =>
    refine .list hx fun v hv => ?_
    obtain ⟨t, -, ht⟩ := exists_mem_of_forall₂ hitems hv
    exact .text ht

theorem ofTexts_of_isStep {step : Step} (h : IsStep x step) : x.OfTexts := by
  obtain ⟨values, hx, hvalues⟩ := h.written
  exact .mapping hx (List.forall_mem_singleton.mpr ⟨_, rfl⟩)
    (List.forall_mem_singleton.mpr (ofTexts_of_isLiterals hvalues))

/-- What is under a field of a definition is a text, or a list of steps. -/
theorem field_cases {entries : List (Value × Stored)} {on : Selector} {steps : List Step}
    {field : String} {v : Stored} (hon : NamesSelector entries on)
    (hsteps : HoldsSteps entries steps)
    (hfield : field = Definition.onField ∨ field = Definition.stepsField)
    (hv : Entries.find? (.text field) entries = some v) :
    (∃ t, shape v = .scalar (.text t)) ∨
      ∃ items, shape v = .list items ∧ List.Forall₂ IsStep items steps := by
  rcases hfield with rfl | rfl
  · cases hon with
    | absent hnone => cases hnone.symm.trans hv
    | present hfind hname =>
      cases hfind.symm.trans hv
      exact .inl ⟨_, hname⟩
  · cases hsteps with
    | absent hnone => cases hnone.symm.trans hv
    | present hfind hlist _ hitems =>
      cases hfind.symm.trans hv
      exact .inr ⟨_, hlist, hitems⟩

/-- A definition is the name of a preset, or a mapping from texts to texts and lists of steps.  No
key of it comes twice, so this is all that it holds. -/
theorem entries_of_isDefinition {d : Definition} (hs : s.Sound)
    (h : IsDefinition (⟨s, i⟩ : Stored) d) :
    (∃ p : Preset, i = .scalar (.text p.name)) ∨ ∃ own, s.entries? i = some own ∧
      ∀ e ∈ own, (∃ k, e.1 = .text k) ∧ ((∃ t, shape (⟨s, e.2⟩ : Stored) = .scalar (.text t)) ∨
        ∃ items steps, shape (⟨s, e.2⟩ : Stored) = .list items ∧
          List.Forall₂ IsStep items steps) := by
  cases h with
  | @preset p hv => exact .inl ⟨p, item_of_shape_text hv⟩
  | custom hv honly hon hsteps =>
    obtain ⟨own, hown, rfl⟩ := shape_eq_mapping_iff.mp hv
    have hdistinct : Entries.DistinctKeys (entriesIn s own) :=
      List.pairwise_map.mpr ((hs.fits_entries hown).distinct own rfl)
    refine .inr ⟨own, hown, fun e he => ?_⟩
    have hmem : (e.1, ⟨s, e.2⟩) ∈ entriesIn s own := List.mem_map_of_mem he
    obtain ⟨field, hkey, hfield⟩ : ∃ field, e.1 = .text field ∧
        (field = Definition.onField ∨ field = Definition.stepsField) := by
      rcases honly _ hmem with hkey | hkey
      · exact ⟨_, hkey, .inl rfl⟩
      · exact ⟨_, hkey, .inr rfl⟩
    rw [hkey] at hmem
    have hcases := field_cases hon hsteps hfield (hdistinct.find?_of_mem hmem)
    refine ⟨⟨field, hkey⟩, hcases.imp_right ?_⟩
    rintro ⟨items, hlist, hitems⟩
    exact ⟨items, _, hlist, hitems⟩

/-- **A definition is made of texts.** -/
theorem ofTexts_of_isDefinition {d : Definition} (hs : s.Sound)
    (h : IsDefinition (⟨s, i⟩ : Stored) d) : OfTexts ⟨s, i⟩ := by
  rcases entries_of_isDefinition hs h with ⟨p, rfl⟩ | ⟨own, hown, hparts⟩
  · exact .text rfl
  · refine .mapping (shape_eq_mapping_iff.mpr ⟨own, hown, rfl⟩)
      (List.forall_mem_map.mpr fun e he => (hparts e he).1) (List.forall_mem_map.mpr fun e he => ?_)
    rcases (hparts e he).2 with ⟨t, ht⟩ | ⟨items, steps, hlist, hitems⟩
    · exact .text ht
    · refine .list hlist fun v hv => ?_
      obtain ⟨step, -, hstep⟩ := exists_mem_of_forall₂ hitems hv
      exact ofTexts_of_isStep hstep

/-- In a definition there is no mapping but within a list. -/
theorem nestsWithin_of_isDefinition {d : Definition} (hs : s.Sound)
    (h : IsDefinition (⟨s, i⟩ : Stored) d) : s.NestsWithin 1 i := by
  rcases entries_of_isDefinition hs h with ⟨p, rfl⟩ | ⟨own, hown, hparts⟩
  · exact Store.nestsWithin_of_not_mapping rfl 1
  · refine Store.nestsWithin_of_entries hown fun e he => ?_
    -- a mapping would be seen as one
    refine Option.eq_none_iff_forall_ne_some.mpr fun inner hinner => ?_
    have hshape := shape_eq_mapping_iff.mpr ⟨inner, hinner, rfl⟩
    rcases (hparts e he).2 with ⟨t, ht⟩ | ⟨items, steps, hlist, -⟩
    · cases hshape.symm.trans ht
    · cases hshape.symm.trans hlist

end Stored

end Winnow
