/-
Winnow/Proofs/Definition/Grammar.lean

The grammar of filter definitions, and the values that are in it.

The grammar says which values are written for which definition, without a word
about the order in which a reader looks at them:

* `IsLiterals` : a text, or a list of texts, within the limit of length;
* `IsStep` : a mapping with one entry, from the name of a call to literals;
* `IsDefinition` : the name of a preset, or a mapping with no other fields than
  `on` and `steps`.

Main result: reading a value gives a definition exactly when the value is
written for it (`definition_ofValue_eq_ok_iff`).  All of it is about the shapes
of values, so it holds of plain values and of stored ones.
-/
import Mathlib.Data.List.Forall2
import Mathlib.Tactic.ByContra
import Winnow.Definition.Basic
import Winnow.Proofs.Outcome

namespace Winnow

open Shaped (shape)

variable {α : Type} [Shaped α]

/-! ### The grammar -/

/-- A value is written for literals. -/
inductive IsLiterals : α → List String → Prop
  | single {v : α} {s : String} : shape v = .scalar (.text s) → IsLiterals v [s]
  | several {v : α} {items : List α} {texts : List String} : shape v = .list items →
      List.Forall₂ (fun i s => shape i = .scalar (.text s)) items texts → IsLiterals v texts

/-- A value is written for a step. -/
structure IsStep (v : α) (s : Step) : Prop where
  written : ∃ values : α, shape v = .mapping [(.text s.call.name, values)] ∧
    IsLiterals values s.literals
  short : ∀ l ∈ s.literals, l.length ≤ literalLimit

/-- Entries name a selector: that of names where they have none. -/
inductive NamesSelector (entries : List (Value × α)) : Selector → Prop
  | absent : Entries.find? (.text Definition.onField) entries = none →
      NamesSelector entries .names
  | present {v : α} {on : Selector} :
      Entries.find? (.text Definition.onField) entries = some v →
      shape v = .scalar (.text on.name) → NamesSelector entries on

/-- Entries hold steps: none where they have no such field. -/
inductive HoldsSteps (entries : List (Value × α)) : List Step → Prop
  | absent : Entries.find? (.text Definition.stepsField) entries = none → HoldsSteps entries []
  | present {v : α} {items : List α} {steps : List Step} :
      Entries.find? (.text Definition.stepsField) entries = some v → shape v = .list items →
      items.length ≤ stepLimit → List.Forall₂ IsStep items steps → HoldsSteps entries steps

/-- Entries have no other fields than those of a definition. -/
def OnlyFields (entries : List (Value × α)) : Prop :=
  ∀ e ∈ entries, e.1 = .text Definition.onField ∨ e.1 = .text Definition.stepsField

/-- A value is written for a definition. -/
inductive IsDefinition : α → Definition → Prop
  | preset {v : α} {p : Preset} : shape v = .scalar (.text p.name) → IsDefinition v (.preset p)
  | custom {v : α} {entries : List (Value × α)} {on : Selector} {steps : List Step} :
      shape v = .mapping entries → OnlyFields entries → NamesSelector entries on →
      HoldsSteps entries steps → IsDefinition v (.custom on steps)

/-! ### Words and what they name -/

theorem call_ofName?_eq_some_iff {name : String} {c : Call} :
    Call.ofName? name = some c ↔ name = c.name := by
  constructor
  · intro h
    have hname := List.find?_some h
    exact (beq_iff_eq.mp hname).symm
  · rintro rfl
    obtain ⟨o, n⟩ := c
    cases o <;> cases n <;> rfl

theorem selector_ofName?_eq_some_iff {name : String} {s : Selector} :
    Selector.ofName? name = some s ↔ name = s.name := by
  constructor
  · intro h
    have hname := List.find?_some h
    exact (beq_iff_eq.mp hname).symm
  · rintro rfl
    cases s <;> rfl

theorem preset_ofName?_eq_some_iff {name : String} {p : Preset} :
    Preset.ofName? name = some p ↔ name = p.name := by
  constructor
  · intro h
    have hname := List.find?_some h
    exact (beq_iff_eq.mp hname).symm
  · rintro rfl
    cases p <;> rfl

theorem shape_text?_eq_some_iff {β : Type} {x : Shape β} {s : String} :
    x.text? = some s ↔ x = .scalar (.text s) := by
  constructor
  · intro h
    unfold Shape.text? at h
    split at h
    · rw [Option.some.inj h]
    · cases h
  · rintro rfl
    rfl

theorem value_text?_eq_some_iff {v : Value} {s : String} : v.text? = some s ↔ v = .text s := by
  constructor
  · intro h
    unfold Value.text? at h
    split at h
    · rw [Option.some.inj h]
    · cases h
  · rintro rfl
    rfl

/-! ### Literals -/

theorem literalsFrom_eq_ok_iff {position : Nat} {items : List α} {texts : List String} :
    literalsFrom position items = .ok texts
      ↔ List.Forall₂ (fun i s => shape i = .scalar (.text s)) items texts := by
  induction items generalizing position texts with
  | nil =>
    rw [literalsFrom, List.forall₂_nil_left_iff, Except.ok.injEq, eq_comm]
  | cons v vs ih =>
    rw [literalsFrom, List.forall₂_cons_left_iff]
    cases hv : (shape v).text? with
    | none =>
      refine iff_of_false nofun ?_
      rintro ⟨s, rest, hs, -, -⟩
      rw [shape_text?_eq_some_iff.mpr hs] at hv
      cases hv
    | some s =>
      simp only [except_bind_eq_ok_iff, ih, Except.ok.injEq]
      have hs := shape_text?_eq_some_iff.mp hv
      constructor
      · rintro ⟨rest, hrest, rfl⟩
        exact ⟨s, rest, hs, hrest, rfl⟩
      · rintro ⟨t, rest, ht, hrest, rfl⟩
        rw [hs] at ht
        injection ht with ht
        injection ht with ht
        exact ⟨rest, hrest, by rw [ht]⟩

theorem rawLiterals_eq_ok_iff {call : Call} {v : α} {texts : List String} :
    Step.rawLiterals call v = .ok texts ↔ IsLiterals v texts := by
  unfold Step.rawLiterals
  constructor
  · intro h
    split at h
    · injection h with h
      exact h ▸ .single ‹_›
    · exact .several ‹_› (literalsFrom_eq_ok_iff.mp h)
    · cases h
  · rintro (hv | ⟨hv, hitems⟩)
    · rw [hv]
    · rw [hv]
      exact literalsFrom_eq_ok_iff.mpr hitems

theorem literals?_eq_ok_iff {call : Call} {v : α} {texts : List String} :
    Step.literals? call v = .ok texts
      ↔ IsLiterals v texts ∧ ∀ l ∈ texts, l.length ≤ literalLimit := by
  simp only [Step.literals?, except_bind_eq_ok_iff, rawLiterals_eq_ok_iff]
  constructor
  · rintro ⟨raw, hraw, h⟩
    split at h
    · cases h
    · rename_i hshort
      injection h with h
      subst h
      refine ⟨hraw, fun l hl => ?_⟩
      by_contra hlong
      exact hshort (List.any_eq_true.mpr ⟨l, hl, by simpa using hlong⟩)
  · rintro ⟨hraw, hshort⟩
    refine ⟨texts, hraw, if_neg ?_⟩
    simpa using hshort

/-! ### Steps -/

theorem step_ofValue_eq_ok_iff {v : α} {s : Step} : Step.ofValue v = .ok s ↔ IsStep v s := by
  constructor
  · intro h
    unfold Step.ofValue at h
    split at h
    · rename_i name values hv
      split at h
      · cases h
      · rename_i call hcall
        obtain ⟨literals, hliterals, hs⟩ := except_bind_eq_ok_iff.mp h
        injection hs with hs
        subst hs
        obtain ⟨word, hword, hname⟩ := Option.bind_eq_some_iff.mp hcall
        rw [value_text?_eq_some_iff] at hword
        rw [call_ofName?_eq_some_iff] at hname
        obtain ⟨hraw, hshort⟩ := literals?_eq_ok_iff.mp hliterals
        exact ⟨⟨values, by rw [hv, hword, hname], hraw⟩, hshort⟩
    · cases h
    · cases h
  · rintro ⟨⟨values, hv, hraw⟩, hshort⟩
    have hname : (Value.text s.call.name).text?.bind Call.ofName? = some s.call :=
      call_ofName?_eq_some_iff.mpr rfl
    have hliterals : Step.literals? s.call values = .ok s.literals :=
      literals?_eq_ok_iff.mpr ⟨hraw, hshort⟩
    unfold Step.ofValue
    rw [hv]
    simp only [hname, hliterals]
    rfl

theorem listFrom_eq_ok_iff {index : Nat} {items : List α} {steps : List Step} :
    Step.listFrom index items = .ok steps ↔ List.Forall₂ IsStep items steps := by
  induction items generalizing index steps with
  | nil =>
    rw [Step.listFrom, List.forall₂_nil_left_iff, Except.ok.injEq, eq_comm]
  | cons v vs ih =>
    rw [Step.listFrom, List.forall₂_cons_left_iff]
    cases hv : Step.ofValue v with
    | error fault =>
      refine iff_of_false nofun ?_
      rintro ⟨s, rest, hs, -, -⟩
      rw [step_ofValue_eq_ok_iff.mpr hs] at hv
      cases hv
    | ok s =>
      simp only [except_bind_eq_ok_iff, ih, Except.ok.injEq]
      constructor
      · rintro ⟨rest, hrest, rfl⟩
        exact ⟨s, rest, step_ofValue_eq_ok_iff.mp hv, hrest, rfl⟩
      · rintro ⟨t, rest, ht, hrest, rfl⟩
        rw [step_ofValue_eq_ok_iff.mpr ht] at hv
        injection hv with hv
        exact ⟨rest, hrest, by rw [hv]⟩

/-- The first step that is not in the grammar ends the reading of steps, and its
index is known. -/
theorem listFrom_of_faulty (index : Nat) {before : List α} (after : List α) {v : α}
    (hbefore : ∀ x ∈ before, ∃ s, IsStep x s) (hv : ∀ s, ¬ IsStep v s) :
    ∃ fault, Step.ofValue v = .error fault ∧
      Step.listFrom index (before ++ v :: after)
        = .error (fault.inStep (index + before.length)) := by
  induction before generalizing index with
  | nil =>
    cases h : Step.ofValue v with
    | ok s => exact absurd (step_ofValue_eq_ok_iff.mp h) (hv s)
    | error fault => exact ⟨fault, rfl, by rw [List.nil_append, Step.listFrom, h]; rfl⟩
  | cons x rest ih =>
    obtain ⟨s, hs⟩ := hbefore x (by simp)
    obtain ⟨fault, hfault, hrest⟩ := ih (index + 1) fun y hy => hbefore y (by simp [hy])
    refine ⟨fault, hfault, ?_⟩
    rw [List.cons_append, Step.listFrom, step_ofValue_eq_ok_iff.mpr hs]
    simp only [hrest, List.length_cons]
    rw [Nat.add_right_comm, Nat.add_assoc]
    rfl

/-! ### Fields -/

omit [Shaped α] in
theorem unknownKeys_eq_nil_iff {entries : List (Value × α)} :
    Definition.unknownKeys entries = [] ↔ OnlyFields entries := by
  unfold Definition.unknownKeys OnlyFields
  simp only [List.filter_eq_nil_iff, List.mem_map, Bool.and_eq_true, bne_iff_ne, ne_eq,
    not_and_or, not_not, value_text?_eq_some_iff, forall_exists_index, and_imp,
    forall_apply_eq_imp_iff₂]

theorem selectorOf_eq_ok_iff {entries : List (Value × α)} {on : Selector} :
    Definition.selectorOf entries = .ok on ↔ NamesSelector entries on := by
  unfold Definition.selectorOf
  constructor
  · intro h
    split at h
    · injection h with h
      exact h ▸ .absent ‹_›
    · rename_i v hv
      split at h
      · cases h
      · rename_i s hs
        injection h with h
        subst h
        obtain ⟨word, hword, hname⟩ := Option.bind_eq_some_iff.mp hs
        rw [shape_text?_eq_some_iff] at hword
        rw [selector_ofName?_eq_some_iff] at hname
        exact .present hv (hname ▸ hword)
  · intro h
    cases h with
    | absent hfind => rw [hfind]
    | @present v _ hfind hv =>
      have hs : (shape v).text?.bind Selector.ofName? = some on := by
        rw [hv]
        exact selector_ofName?_eq_some_iff.mpr rfl
      rw [hfind]
      simp only [hs]

theorem stepsOf_eq_ok_iff {entries : List (Value × α)} {steps : List Step} :
    Definition.stepsOf entries = .ok steps ↔ HoldsSteps entries steps := by
  unfold Definition.stepsOf
  constructor
  · intro h
    split at h
    · rename_i hfind
      injection h with h
      exact h ▸ .absent (Option.map_eq_none_iff.mp hfind)
    · rename_i items hfind
      obtain ⟨v, hv, hitems⟩ := Option.map_eq_some_iff.mp hfind
      split at h
      · cases h
      · exact .present hv hitems (by omega) (listFrom_eq_ok_iff.mp h)
    · cases h
  · rintro (hfind | ⟨hfind, hv, hlength, hsteps⟩)
    · rw [hfind]
      rfl
    · rw [hfind, Option.map_some, hv]
      simp only [Nat.not_lt.mpr hlength, if_false]
      exact listFrom_eq_ok_iff.mpr hsteps

/-! ### Definitions -/

/-- **Reading accepts exactly the grammar**, and gives the definition that the
value is written for. -/
theorem definition_ofValue_eq_ok_iff {v : α} {d : Definition} :
    Definition.ofValue v = .ok d ↔ IsDefinition v d := by
  unfold Definition.ofValue
  constructor
  · intro h
    split at h
    · rename_i name hv
      split at h
      · cases h
      · rename_i p hp
        injection h with h
        subst h
        rw [preset_ofName?_eq_some_iff] at hp
        exact .preset (hp ▸ hv)
    · rename_i entries hv
      split at h
      · rename_i hkeys
        obtain ⟨on, hon, h⟩ := except_bind_eq_ok_iff.mp h
        obtain ⟨steps, hsteps, h⟩ := except_bind_eq_ok_iff.mp h
        injection h with h
        subst h
        exact .custom hv (unknownKeys_eq_nil_iff.mp hkeys) (selectorOf_eq_ok_iff.mp hon)
          (stepsOf_eq_ok_iff.mp hsteps)
      · cases h
    · cases h
  · intro h
    cases h with
    | @preset p hv =>
      have hp : Preset.ofName? p.name = some p := preset_ofName?_eq_some_iff.mpr rfl
      rw [hv]
      simp only [hp]
    | custom hv honly hon hsteps =>
      rw [hv]
      simp only [unknownKeys_eq_nil_iff.mpr honly, selectorOf_eq_ok_iff.mpr hon,
        stepsOf_eq_ok_iff.mpr hsteps]
      rfl

end Winnow
