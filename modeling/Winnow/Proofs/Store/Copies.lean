/-
Winnow/Proofs/Store/Copies.lean

Copies are twins of what they are copies of.

When a value comes into a store, and when an object is copied, each object is paired with
the one that takes its place there: the one that is as many cells further on
(`twins_adopt`), or the one that stands among the copies where it was met (`twins_copy`).
Twins of twins are twins (`Twins.comp`), so a copy of a copy is one, too.
-/
import Mathlib.Logic.Relation
import Winnow.Proofs.Store.Alongside

namespace Winnow

open Relation (Comp)

variable {P Q : Pairing}

/-! ### One pairing after another -/

theorem forall₂_comp {α β γ : Type} {A : α → β → Prop} {B : β → γ → Prop} {C : α → γ → Prop}
    {row : List α} {row' : List β} {row'' : List γ} (h : List.Forall₂ A row row')
    (k : List.Forall₂ B row' row'') (hABC : ∀ a b c, A a b → B b c → C a c) :
    List.Forall₂ C row row'' := by
  induction h generalizing row'' with
  | nil =>
    cases k
    exact .nil
  | cons hab _ ih =>
    cases k with
    | cons hbc hrest => exact .cons (hABC _ _ _ hab hbc) (ih hrest)

theorem Item.Paired.comp {i j k : Item} (h : Item.Paired P i j) (h' : Item.Paired Q j k) :
    Item.Paired (Comp P Q) i k := by
  cases h with
  | scalar x =>
    cases h'
    exact .scalar x
  | object hab =>
    cases h' with
    | object hbc => exact .object ⟨_, hab, hbc⟩

theorem Cell.Paired.comp {c d e : Cell} (h : Cell.Paired P c d) (h' : Cell.Paired Q d e) :
    Cell.Paired (Comp P Q) c e := by
  cases h with
  | list h =>
    cases h' with
    | list h' => exact .list (forall₂_comp h h' fun _ _ _ => Item.Paired.comp)
  | tuple h =>
    cases h' with
    | tuple h' => exact .tuple (forall₂_comp h h' fun _ _ _ => Item.Paired.comp)
  | mapping h =>
    cases h' with
    | mapping h' =>
      exact .mapping (forall₂_comp h h' fun _ _ _ h h' => ⟨h.1.trans h'.1, h.2.comp h'.2⟩)
  | set members =>
    cases h'
    exact .set members

theorem Cell.items_map (f : Item → Item) (c : Cell) : (c.map f).items = c.items.map f := by
  cases c with
  | mapping entries =>
    show List.map Prod.snd (List.map _ entries) = List.map f (List.map Prod.snd entries)
    rw [List.map_map, List.map_map]
    rfl
  | _ => rfl

/-- A cell is paired with what its items are changed for, if they are. -/
theorem Cell.paired_map {f : Item → Item} {c : Cell} (h : ∀ i ∈ c.items, Item.Paired P i (f i)) :
    Cell.Paired P c (c.map f) := by
  cases c with
  | list items => exact .list (List.forall₂_map_right_iff.mpr (List.forall₂_same.mpr h))
  | tuple items => exact .tuple (List.forall₂_map_right_iff.mpr (List.forall₂_same.mpr h))
  | mapping entries =>
    refine .mapping (List.forall₂_map_right_iff.mpr (List.forall₂_same.mpr fun e he => ?_))
    exact ⟨rfl, h e.2 (List.mem_map_of_mem he)⟩
  | set members => exact .set members

namespace Store

variable {s t u : Store} {i : Item}

/-- **Twins of twins are twins.** -/
theorem Twins.comp (h : Twins P s t) (h' : Twins Q t u) : Twins (Comp P Q) s u := by
  constructor
  · rintro a c c' ⟨b, hab, hbc⟩ ⟨b', hab', hbc'⟩
    cases h.left hab hab'
    exact h'.left hbc hbc'
  · rintro a a' c ⟨b, hab, hbc⟩ ⟨b', hab', hbc'⟩
    cases h'.right hbc hbc'
    exact h.right hab hab'
  · exact fun k => ⟨_, h.aligned k, h'.aligned k⟩
  · rintro a c ⟨b, hab, hbc⟩
    have hfirst := h.cell hab
    have hsecond := h'.cell hbc
    rcases rel_cases hfirst with ⟨hs, ht⟩ | ⟨x, y, hs, ht, hxy⟩ <;> rw [ht] at hsecond <;> rw [hs]
    · rcases rel_cases hsecond with ⟨-, hu⟩ | ⟨y, z, hy, -, -⟩
      · rw [hu]
        exact .none
      · cases hy
    · rcases rel_cases hsecond with ⟨hy, -⟩ | ⟨y', z, hy, hu, hyz⟩
      · cases hy
      · cases hy
        rw [hu]
        exact .some (hxy.comp hyz)

/-- Stores that have nothing in common, but for what will come. -/
theorem twins_new (s t : Store) : Twins (fun a b => ∃ k, a = s.size + k ∧ b = t.size + k) s t := by
  refine ⟨?_, ?_, fun k => ⟨k, rfl, rfl⟩, ?_⟩
  · rintro a b b' ⟨k, rfl, rfl⟩ ⟨k', hk, rfl⟩
    omega
  · rintro a a' b ⟨k, rfl, rfl⟩ ⟨k', rfl, hk⟩
    omega
  · rintro a b ⟨k, rfl, rfl⟩
    rw [cell?_size_add, cell?_size_add]
    exact .none

/-! ### New objects -/

/-- **A value is a twin of the object that it becomes.** -/
theorem twins_adopt (s : Store) (v : Stored) :
    Twins (fun a b => b = s.size + a) v.store (s.adopt v).2
      ∧ Item.Paired (fun a b => b = s.size + a) v.item (s.adopt v).1 := by
  have hitem (i : Item) : Item.Paired (fun a b => b = s.size + a) i (i.shifted 0 s.size) := by
    cases i with
    | scalar x => exact .scalar x
    | object a => exact .object (Nat.add_comm a s.size)
  refine ⟨⟨fun h k => h.trans k.symm, fun h k => Nat.add_left_cancel (h.symm.trans k), fun k => ?_,
    ?_⟩, hitem v.item⟩
  · rw [size_adopt, Nat.add_assoc]
  · rintro a _ rfl
    rw [cell?_adopt]
    cases v.store.cell? a with
    | none => exact .none
    | some c => exact .some (Cell.paired_map fun i _ => hitem i)

/-! ### Copies -/

/-- An object stands for its copy, where the objects at the addresses `old` have been copied; and
new cells are paired as ever. -/
def copied (s t : Store) (old : List Nat) : Pairing := fun a b =>
  (a ∈ old ∧ b = s.size + old.idxOf a) ∨ ∃ k, a = s.size + k ∧ b = t.size + k

/-- **A copy is a twin** of what it is a copy of. -/
theorem twins_copy (hs : s.Sound) (hi : s.Holds i) :
    Twins (copied s (s.copy i).2 (s.reached i)) s (s.copy i).2
      ∧ Item.Paired (copied s (s.copy i).2 (s.reached i)) i (s.copy i).1 := by
  obtain ⟨hroot, hclosed⟩ := reached_closed s i
  have hsize := size_copy hs hi
  have hlt := reached_lt hs hi
  have hidx {a : Nat} (ha : a ∈ s.reached i) : (s.reached i).idxOf a < (s.reached i).length :=
    List.idxOf_lt_length_of_mem ha
  -- what is reached is paired with what takes its place
  have hmoved (j : Item) (hj : ∀ a, j = .object a → a ∈ s.reached i) :
      Item.Paired (copied s (s.copy i).2 (s.reached i)) j (moved s.size (s.reached i) j) := by
    cases j with
    | scalar x => exact .scalar x
    | object a => exact .object (.inl ⟨hj a rfl, rfl⟩)
  refine ⟨⟨?_, ?_, fun k => .inr ⟨k, rfl, rfl⟩, ?_⟩, hmoved i hroot⟩
  · rintro a b b' (⟨ha, rfl⟩ | ⟨k, rfl, rfl⟩) (⟨ha', rfl⟩ | ⟨k', hk, rfl⟩)
    · rfl
    · have hold := hlt a ha
      omega
    · have hold := hlt _ ha'
      omega
    · omega
  · rintro a a' b (⟨ha, rfl⟩ | ⟨k, rfl, rfl⟩) (⟨ha', hb⟩ | ⟨k', rfl, hb⟩)
    · exact (List.idxOf_inj ha).mp (Nat.add_left_cancel hb)
    · have hold := hidx ha
      omega
    · have hold := hidx ha'
      omega
    · omega
  · rintro a b (⟨ha, rfl⟩ | ⟨k, rfl, rfl⟩)
    · obtain ⟨c, hc⟩ := exists_cell? (hlt a ha)
      rw [cell?_copy hs hi, List.getElem?_idxOf ha, Option.bind_some, hc]
      refine .some (Cell.paired_map fun j hj => hmoved j ?_)
      rintro b rfl
      refine hclosed a ha b ?_
      unfold partsAt
      rw [hc]
      exact List.mem_filterMap.mpr ⟨.object b, hj, rfl⟩
    · rw [cell?_size_add, cell?_size_add]
      exact .none

end Store

end Winnow
