/-
Winnow/Proofs/Definition/Alike.lean

Values that look alike define the same.

A definition is read from the shapes of a value and its parts.  So if a relation
between values, of one type or of two, keeps shapes (`KeepsShapes`), related
values are written for the same definitions (`KeepsShapes.isDefinition`), whatever
their parts are made of.
-/
import Winnow.Proofs.Definition.Grammar

namespace Winnow

open Shaped (shape)

variable {α β : Type}

/-- Two shapes are of the same form, and their parts are related. -/
inductive Shape.Alike (R : α → β → Prop) : Shape α → Shape β → Prop
  | scalar (s : Scalar) : Alike R (.scalar s) (.scalar s)
  | list {items : List α} {others : List β} : List.Forall₂ R items others →
      Alike R (.list items) (.list others)
  | tuple {items : List α} {others : List β} : List.Forall₂ R items others →
      Alike R (.tuple items) (.tuple others)
  | mapping {entries : List (Value × α)} {others : List (Value × β)} :
      List.Forall₂ (fun e f => e.1 = f.1 ∧ R e.2 f.2) entries others →
      Alike R (.mapping entries) (.mapping others)
  | set (members : List Value) : Alike R (.set members) (.set members)

/-- What holds of the items of a row, item by item, holds of related items. -/
theorem forall₂_of_related {γ : Type} {R : α → β → Prop} {P : α → γ → Prop} {Q : β → γ → Prop}
    {items : List α} {others : List β} {found : List γ} (h : List.Forall₂ R items others)
    (hitems : List.Forall₂ P items found) (hstep : ∀ a b c, R a b → P a c → Q b c) :
    List.Forall₂ Q others found := by
  induction hitems generalizing others with
  | nil =>
    cases h
    exact .nil
  | cons hfirst _ ih =>
    cases h with
    | cons hR hrest => exact .cons (hstep _ _ _ hR hfirst) (ih hrest)

/-- Every item of a row has one that it is related to. -/
theorem exists_mem_of_forall₂ {R : α → β → Prop} {items : List α} {others : List β}
    (h : List.Forall₂ R items others) {a : α} (ha : a ∈ items) : ∃ b ∈ others, R a b := by
  induction h with
  | nil => cases ha
  | cons hfirst _ ih =>
    rcases List.mem_cons.mp ha with rfl | ha
    · exact ⟨_, List.mem_cons_self, hfirst⟩
    · obtain ⟨b, hb, hR⟩ := ih ha
      exact ⟨b, List.mem_cons_of_mem _ hb, hR⟩

namespace Entries

variable {R : α → β → Prop} {entries : List (Value × α)} {others : List (Value × β)}

/-- Related entries have related values under a key, or none. -/
theorem find?_of_forall₂ (h : List.Forall₂ (fun e f => e.1 = f.1 ∧ R e.2 f.2) entries others)
    (key : Value) :
    (find? key entries = none ∧ find? key others = none) ∨
      ∃ a b, find? key entries = some a ∧ find? key others = some b ∧ R a b := by
  induction h with
  | nil => exact .inl ⟨rfl, rfl⟩
  | @cons e f _ _ hfirst _ ih =>
    obtain ⟨hkey, hvalue⟩ := hfirst
    rw [find?, find?, hkey]
    split
    · exact .inr ⟨e.2, f.2, rfl, rfl, hvalue⟩
    · exact ih

end Entries

variable [Shaped α] [Shaped β]

/-- A relation holds only between values of the same form, and between their
parts. -/
def KeepsShapes (R : α → β → Prop) : Prop := ∀ a b, R a b → Shape.Alike R (shape a) (shape b)

namespace KeepsShapes

variable {R : α → β → Prop} {a : α} {b : β}

theorem scalar (hR : KeepsShapes R) (h : R a b) {x : Scalar} (ha : shape a = .scalar x) :
    shape b = .scalar x := by
  have halike := hR a b h
  rw [ha] at halike
  generalize shape b = other at halike
  cases halike
  rfl

theorem list (hR : KeepsShapes R) (h : R a b) {items : List α} (ha : shape a = .list items) :
    ∃ others, shape b = .list others ∧ List.Forall₂ R items others := by
  have halike := hR a b h
  rw [ha] at halike
  generalize shape b = other at halike
  cases halike with
  | list hitems => exact ⟨_, rfl, hitems⟩

theorem mapping (hR : KeepsShapes R) (h : R a b) {entries : List (Value × α)}
    (ha : shape a = .mapping entries) :
    ∃ others, shape b = .mapping others ∧
      List.Forall₂ (fun e f => e.1 = f.1 ∧ R e.2 f.2) entries others := by
  have halike := hR a b h
  rw [ha] at halike
  generalize shape b = other at halike
  cases halike with
  | mapping hentries => exact ⟨_, rfl, hentries⟩

theorem isLiterals (hR : KeepsShapes R) (h : R a b) {texts : List String}
    (ha : IsLiterals a texts) : IsLiterals b texts := by
  cases ha with
  | single ha => exact .single (hR.scalar h ha)
  | several ha hitems =>
    obtain ⟨others, hb, hothers⟩ := hR.list h ha
    exact .several hb (forall₂_of_related hothers hitems fun _ _ _ hitem => hR.scalar hitem)

theorem isStep (hR : KeepsShapes R) (h : R a b) {s : Step} (ha : IsStep a s) : IsStep b s := by
  obtain ⟨⟨values, ha, hvalues⟩, hshort⟩ := ha
  obtain ⟨others, hb, hothers⟩ := hR.mapping h ha
  obtain ⟨⟨key, other⟩, rest, ⟨rfl, hother⟩, hrest, rfl⟩ := List.forall₂_cons_left_iff.mp hothers
  cases hrest
  exact ⟨⟨other, hb, hR.isLiterals hother hvalues⟩, hshort⟩

/-- **Values that look alike are written for the same definition.** -/
theorem isDefinition (hR : KeepsShapes R) (h : R a b) {d : Definition} (ha : IsDefinition a d) :
    IsDefinition b d := by
  cases ha with
  | preset ha => exact .preset (hR.scalar h ha)
  | @custom entries on steps ha honly hon hsteps =>
    obtain ⟨others, hb, hothers⟩ := hR.mapping h ha
    refine .custom hb ?_ ?_ ?_
    · intro f hf
      obtain ⟨e, he, hkey, -⟩ := exists_mem_of_forall₂ hothers.flip hf
      exact hkey ▸ honly e he
    · rcases Entries.find?_of_forall₂ hothers (.text Definition.onField) with
        ⟨hfind, hfind'⟩ | ⟨v, w, hfind, hfind', hvalue⟩
      · cases hon with
        | absent _ => exact .absent hfind'
        | present hv _ =>
          rw [hfind] at hv
          cases hv
      · cases hon with
        | absent hv =>
          rw [hfind] at hv
          cases hv
        | present hv hname =>
          rw [hfind] at hv
          cases hv
          exact .present hfind' (hR.scalar hvalue hname)
    · rcases Entries.find?_of_forall₂ hothers (.text Definition.stepsField) with
        ⟨hfind, hfind'⟩ | ⟨v, w, hfind, hfind', hvalue⟩
      · cases hsteps with
        | absent _ => exact .absent hfind'
        | present hv _ _ _ =>
          rw [hfind] at hv
          cases hv
      · cases hsteps with
        | absent hv =>
          rw [hfind] at hv
          cases hv
        | present hv hlist hlength hitems =>
          rw [hfind] at hv
          cases hv
          obtain ⟨others', hw, hothers'⟩ := hR.list hvalue hlist
          refine .present hfind' hw (hothers'.length_eq ▸ hlength) ?_
          exact forall₂_of_related hothers' hitems fun _ _ _ hitem => hR.isStep hitem

end KeepsShapes

end Winnow
