/-
Winnow/Proofs/Store/Twins.lean

The same objects in two stores, and the same done to both.

Two stores may have the same objects at other addresses, among cells that are not
the same.  A pairing says which cell of one store stands for which cell of the
other.  The stores are twins by it when paired cells hold the same, but for
addresses, which are paired again; and when the next new cells of one store are
paired with those of the other, in order (`Twins`).  So a pairing says in advance
how the stores grow, and stays the same while they do.

What is read from twins is the same (`Twins.entries?`, `Twins.find?`,
`Twins.viewTo_eq`).  What is done to both leaves twins, and leaves all cells without
a partner as they were (`Alongside`).  Where the stores grow or change apart from one
another, and cells with a partner are left as they were, the pairing is good for all
that was there, and goes on behind the new ends (`Twins.realign`).
-/
import Mathlib.Data.List.Forall2
import Winnow.Proofs.Store.Assigning
import Winnow.Proofs.Store.Merging

namespace Winnow

/-- Which cell of one store stands for which cell of another, by their addresses. -/
abbrev Pairing := Nat → Nat → Prop

/-- A pairing of stores up to the address `old`, when they have got the sizes `m` and `n` apart
from one another: behind these, new cells are paired in order. -/
def Pairing.realigned (P : Pairing) (old m n : Nat) : Pairing :=
  fun a b => (a < old ∧ P a b) ∨ ∃ k, a = m + k ∧ b = n + k

variable {P R : Pairing}

theorem rel_cases {α β : Type} {Q : α → β → Prop} {x : Option α} {y : Option β}
    (h : Option.Rel Q x y) : (x = none ∧ y = none) ∨ ∃ a b, x = some a ∧ y = some b ∧ Q a b := by
  cases h with
  | none => exact .inl ⟨rfl, rfl⟩
  | some h => exact .inr ⟨_, _, rfl, rfl, h⟩

theorem map_eq_of_forall₂ {α β γ : Type} {Q : α → β → Prop} {f : α → γ} {g : β → γ}
    {row : List α} {row' : List β} (h : List.Forall₂ Q row row')
    (hfg : ∀ {a b}, Q a b → f a = g b) : row.map f = row'.map g := by
  rw [← List.forall₂_eq_eq_eq]
  exact List.rel_map (fun _ _ hab => hfg hab) h

/-! ### Items and cells -/

/-- Two items are one scalar, or the addresses of cells that are paired. -/
inductive Item.Paired (P : Pairing) : Item → Item → Prop
  | scalar (x : Scalar) : Paired P (.scalar x) (.scalar x)
  | object {a b : Nat} : P a b → Paired P (.object a) (.object b)

theorem Item.paired_refl (h : ∀ a, P a a) (i : Item) : Item.Paired P i i := by
  cases i with
  | scalar x => exact .scalar x
  | object a => exact .object (h a)

theorem Item.Paired.isNull_eq {i j : Item} (h : Item.Paired P i j) : i.isNull = j.isNull := by
  cases h <;> rfl

/-- Entries with the same keys, in the same order, over items that are paired. -/
def Entries.Paired (P : Pairing) : List (Value × Item) → List (Value × Item) → Prop :=
  List.Forall₂ fun e d => e.1 = d.1 ∧ Item.Paired P e.2 d.2

namespace Entries.Paired

variable {entries others : List (Value × Item)}

theorem find? (h : Entries.Paired P entries others) (key : Value) :
    Option.Rel (Item.Paired P) (Entries.find? key entries) (Entries.find? key others) := by
  induction h with
  | nil => exact .none
  | cons hfirst _ ih =>
    rw [Entries.find?, Entries.find?, hfirst.1]
    split
    · exact .some hfirst.2
    · exact ih

theorem insert (h : Entries.Paired P entries others) (key : Value) {i j : Item}
    (hi : Item.Paired P i j) :
    Entries.Paired P (Entries.insert key i entries) (Entries.insert key j others) := by
  induction h with
  | nil => exact .cons ⟨rfl, hi⟩ .nil
  | @cons e d rest rest' hfirst hrest ih =>
    obtain ⟨k, v⟩ := e
    obtain ⟨l, w⟩ := d
    obtain ⟨rfl, hv⟩ := hfirst
    rw [Entries.insert, Entries.insert]
    split
    · exact .cons ⟨rfl, hi⟩ hrest
    · exact .cons ⟨rfl, hv⟩ ih

end Entries.Paired

/-- Two cells hold the same, but for addresses that are paired. -/
inductive Cell.Paired (P : Pairing) : Cell → Cell → Prop
  | list {items others : List Item} : List.Forall₂ (Item.Paired P) items others →
      Paired P (.list items) (.list others)
  | tuple {items others : List Item} : List.Forall₂ (Item.Paired P) items others →
      Paired P (.tuple items) (.tuple others)
  | mapping {entries others : List (Value × Item)} : Entries.Paired P entries others →
      Paired P (.mapping entries) (.mapping others)
  | set (members : List Value) : Paired P (.set members) (.set members)

theorem Cell.paired_refl (h : ∀ a, P a a) (c : Cell) : Cell.Paired P c c := by
  cases c with
  | list items => exact .list (List.forall₂_same.mpr fun i _ => Item.paired_refl h i)
  | tuple items => exact .tuple (List.forall₂_same.mpr fun i _ => Item.paired_refl h i)
  | mapping entries =>
    exact .mapping (List.forall₂_same.mpr fun e _ => ⟨rfl, Item.paired_refl h e.2⟩)
  | set members => exact .set members

namespace Cell.Paired

variable {c d : Cell}

theorem items (h : Cell.Paired P c d) : List.Forall₂ (Item.Paired P) c.items d.items := by
  cases h with
  | list h => exact h
  | tuple h => exact h
  | mapping h => exact List.rel_map (fun _ _ h => h.2) h
  | set members => exact .nil

theorem kind_eq (h : Cell.Paired P c d) : c.kind = d.kind := by cases h <;> rfl

/-- Cells stay paired when their items are changed for others that are paired. -/
theorem map {f g : Item → Item} (hfg : ∀ i j, Item.Paired P i j → Item.Paired R (f i) (g j))
    (h : Cell.Paired P c d) : Cell.Paired R (c.map f) (d.map g) := by
  cases h with
  | list h => exact .list (List.rel_map hfg h)
  | tuple h => exact .tuple (List.rel_map hfg h)
  | mapping h => exact .mapping (List.rel_map (fun _ _ h => ⟨h.1, hfg _ _ h.2⟩) h)
  | set members => exact .set members

/-- Cells are paired by another pairing that pairs their items. -/
theorem mono (h : Cell.Paired P c d)
    (hPR : ∀ i ∈ c.items, ∀ j, Item.Paired P i j → Item.Paired R i j) : Cell.Paired R c d := by
  have hrow {row row' : List Item} (hrow : List.Forall₂ (Item.Paired P) row row')
      (hall : ∀ i ∈ row, ∀ j, Item.Paired P i j → Item.Paired R i j) :
      List.Forall₂ (Item.Paired R) row row' :=
    ((List.forall₂_and_left _ _).mpr ⟨hall, hrow⟩).imp fun _ _ h => h.1 _ h.2
  cases h with
  | list h => exact .list (hrow h hPR)
  | tuple h => exact .tuple (hrow h hPR)
  | @mapping entries _ h =>
    have hall : ∀ e ∈ entries, ∀ j, Item.Paired P e.2 j → Item.Paired R e.2 j :=
      fun e he => hPR e.2 (List.mem_map_of_mem he)
    exact .mapping (((List.forall₂_and_left _ _).mpr ⟨hall, h⟩).imp
      fun _ _ h => ⟨h.2.1, h.1 _ h.2.2⟩)
  | set members => exact .set members

end Cell.Paired

namespace Store

variable {s t s' t' : Store} {i j : Item} {c d : Cell} {a b : Nat}

/-! ### Twins -/

/-- Two stores have the same in cells that are paired, each with one only, and the new
cells of one are paired with those of the other. -/
structure Twins (P : Pairing) (s t : Store) : Prop where
  left {a b b' : Nat} : P a b → P a b' → b = b'
  right {a a' b : Nat} : P a b → P a' b → a = a'
  aligned (k : Nat) : P (s.size + k) (t.size + k)
  cell {a b : Nat} : P a b → Option.Rel (Cell.Paired P) (s.cell? a) (t.cell? b)

theorem twins_refl (s : Store) : Twins Eq s s := by
  refine ⟨fun h k => h.symm.trans k, fun h k => h.trans k.symm, fun k => rfl, ?_⟩
  rintro a _ rfl
  cases s.cell? a with
  | none => exact .none
  | some c => exact .some (Cell.paired_refl (fun _ => rfl) c)

namespace Twins

/-- Cells and their partners are there together. -/
theorem lt_size_iff (h : Twins P s t) (hab : P a b) : a < s.size ↔ b < t.size := by
  rcases rel_cases (h.cell hab) with ⟨hs, ht⟩ | ⟨c, d, hs, ht, -⟩
  · exact iff_of_false (Nat.not_lt.mpr (Array.getElem?_eq_none_iff.mp hs))
      (Nat.not_lt.mpr (Array.getElem?_eq_none_iff.mp ht))
  · exact iff_of_true (lt_size_of_cell? hs) (lt_size_of_cell? ht)

theorem eq_size_iff (h : Twins P s t) (hab : P a b) : a = s.size ↔ b = t.size := by
  constructor
  · rintro rfl
    exact h.left hab (h.aligned 0)
  · rintro rfl
    exact h.right hab (h.aligned 0)

/-! ### Reading -/

theorem kind_eq (h : Twins P s t) (hi : Item.Paired P i j) : s.kind i = t.kind j := by
  cases hi with
  | scalar x => rfl
  | @object a b hab =>
    show ((s.cell? a).map Cell.kind).getD .null = ((t.cell? b).map Cell.kind).getD .null
    rcases rel_cases (h.cell hab) with ⟨hs, ht⟩ | ⟨c, d, hs, ht, hcd⟩
    · rw [hs, ht]
    · rw [hs, ht, Option.map_some, Option.map_some, hcd.kind_eq]

theorem entries? (h : Twins P s t) (hi : Item.Paired P i j) :
    Option.Rel (Entries.Paired P) (s.entries? i) (t.entries? j) := by
  cases hi with
  | scalar x => exact .none
  | @object a b hab =>
    unfold Store.entries?
    rw [Item.address?, Item.address?, Option.bind_some, Option.bind_some]
    rcases rel_cases (h.cell hab) with ⟨hs, ht⟩ | ⟨c, d, hs, ht, hcd⟩ <;> rw [hs, ht]
    · exact .none
    · cases hcd with
      | mapping h => exact .some h
      | _ => exact .none

theorem bind_entries? (h : Twins P s t) {entries others : List (Value × Item)}
    (hentries : Entries.Paired P entries others) (key : Value) :
    Option.Rel (Entries.Paired P) ((Entries.find? key entries).bind s.entries?)
      ((Entries.find? key others).bind t.entries?) := by
  rcases rel_cases (hentries.find? key) with ⟨hs, ht⟩ | ⟨i, j, hs, ht, hi⟩ <;> rw [hs, ht]
  · exact .none
  · exact h.entries? hi

/-- **What is under a path** is the same in twins. -/
theorem find? (h : Twins P s t) (hi : Item.Paired P i j) (path : List String) :
    Option.Rel (Item.Paired P) (s.find? i path) (t.find? j path) := by
  induction path generalizing i j with
  | nil => exact .some hi
  | cons key rest ih =>
    rw [find?_cons, find?_cons]
    rcases rel_cases (h.entries? hi) with ⟨hs, ht⟩ | ⟨entries, others, hs, ht, hentries⟩ <;>
      rw [hs, ht]
    · exact .none
    · rw [Option.bind_some, Option.bind_some]
      rcases rel_cases (hentries.find? (.text key)) with ⟨hs, ht⟩ | ⟨_, _, hs, ht, hnext⟩ <;>
        rw [hs, ht]
      · exact .none
      · exact ih hnext

/-- **Items that are paired look the same**, however deep one looks. -/
theorem viewTo_eq (h : Twins P s t) (hi : Item.Paired P i j) (depth : Nat) :
    s.viewTo depth i = t.viewTo depth j := by
  induction depth generalizing i j with
  | zero => cases hi <;> rw [Store.viewTo, Store.viewTo]
  | succ depth ih =>
    cases hi with
    | scalar x => rw [Store.viewTo, Store.viewTo]
    | @object a b hab =>
      rw [Store.viewTo, Store.viewTo]
      rcases rel_cases (h.cell hab) with ⟨hs, ht⟩ | ⟨c, d, hs, ht, hcd⟩ <;> rw [hs, ht]
      · cases hcd with
        | list h => exact congrArg Value.list (map_eq_of_forall₂ h ih)
        | tuple h => exact congrArg Value.tuple (map_eq_of_forall₂ h ih)
        | mapping h =>
          exact congrArg Value.mapping (map_eq_of_forall₂ h fun h => Prod.ext h.1 (ih h.2))
        | set members => rfl

end Twins

/-! ### Changing both -/

/-- The same has been done to two stores: they are twins still, and cells without a
partner have been left alone. -/
structure Alongside (P : Pairing) (s t s' t' : Store) : Prop where
  twins : Twins P s' t'
  size_le : s.size ≤ s'.size
  size_le' : t.size ≤ t'.size
  keeps : ∀ a < s.size, (∀ b, ¬P a b) → s'.cell? a = s.cell? a
  keeps' : ∀ b < t.size, (∀ a, ¬P a b) → t'.cell? b = t.cell? b

theorem Alongside.refl (h : Twins P s t) : Alongside P s t s t :=
  ⟨h, Nat.le_refl _, Nat.le_refl _, fun _ _ _ => rfl, fun _ _ _ => rfl⟩

theorem Alongside.trans {s'' t'' : Store} (h : Alongside P s t s' t')
    (k : Alongside P s' t' s'' t'') : Alongside P s t s'' t'' := by
  refine ⟨k.twins, Nat.le_trans h.size_le k.size_le, Nat.le_trans h.size_le' k.size_le', ?_, ?_⟩
  · exact fun a ha hne => (k.keeps a (Nat.lt_of_lt_of_le ha h.size_le) hne).trans (h.keeps a ha hne)
  · exact fun b hb hne => (k.keeps' b (Nat.lt_of_lt_of_le hb h.size_le') hne).trans
      (h.keeps' b hb hne)

/-- Another mark changes no cell. -/
theorem Alongside.mark (h : Alongside P s t s' t') (m n : Nat) :
    Alongside P s t { s' with nextMark := m } { t' with nextMark := n } :=
  ⟨⟨h.twins.left, h.twins.right, h.twins.aligned, h.twins.cell⟩, h.size_le, h.size_le', h.keeps,
    h.keeps'⟩

theorem cell?_add_of_ne (h : a ≠ s.size) : (s.add c).2.cell? a = s.cell? a := by
  show (s.cells.push c)[a]? = s.cells[a]?
  exact (Array.getElem?_push).trans (if_neg h)

theorem cell?_size_add (s : Store) (k : Nat) : s.cell? (s.size + k) = none :=
  Array.getElem?_eq_none (Nat.le_add_right _ _)

theorem cell?_put_eq_none (h : s.cell? a = none) : (s.put a c).cell? a = none :=
  Array.getElem?_eq_none_iff.mpr
    (Nat.le_trans (Nat.le_of_eq Array.size_setIfInBounds) (Array.getElem?_eq_none_iff.mp h))

namespace Twins

/-- New cells of twins. -/
theorem add (h : Twins P s t) (hcd : Cell.Paired P c d) :
    Alongside P s t (s.add c).2 (t.add d).2 := by
  refine ⟨⟨h.left, h.right, fun k => ?_, fun {a b} hab => ?_⟩, (growsTo_add s c).size_le,
    (growsTo_add t d).size_le, fun a ha _ => cell?_add_of_ne (Nat.ne_of_lt ha),
    fun b hb _ => cell?_add_of_ne (Nat.ne_of_lt hb)⟩
  · rw [size_add, size_add, Nat.add_assoc, Nat.add_assoc]
    exact h.aligned (1 + k)
  · by_cases ha : a = s.size
    · rw [(h.eq_size_iff hab).mp ha, ha, cell?_add_self, cell?_add_self]
      exact .some hcd
    · rw [cell?_add_of_ne ha, cell?_add_of_ne fun hb => ha ((h.eq_size_iff hab).mpr hb)]
      exact h.cell hab

theorem paired_add (h : Twins P s t) (c d : Cell) : Item.Paired P (s.add c).1 (t.add d).1 :=
  .object (h.aligned 0)

/-- Changing a cell and its partner. -/
theorem put (h : Twins P s t) (hab : P a b) (hcd : Cell.Paired P c d) :
    Alongside P s t (s.put a c) (t.put b d) := by
  refine ⟨⟨h.left, h.right, fun k => ?_, fun {a' b'} hab' => ?_⟩, Nat.le_of_eq size_put.symm,
    Nat.le_of_eq size_put.symm, fun a' _ hne => ?_, fun b' _ hne => ?_⟩
  · rw [size_put, size_put]
    exact h.aligned k
  · by_cases ha : a = a'
    · subst ha
      cases h.left hab hab'
      rcases rel_cases (h.cell hab) with ⟨hs, ht⟩ | ⟨c', d', hs, ht, -⟩
      · rw [cell?_put_eq_none hs, cell?_put_eq_none ht]
        exact .none
      · rw [cell?_put_self hs, cell?_put_self ht]
        exact .some hcd
    · have hb : b ≠ b' := fun hb => ha (h.right hab (hb ▸ hab'))
      rw [cell?_put_of_ne ha, cell?_put_of_ne hb]
      exact h.cell hab'
  · refine cell?_put_of_ne ?_
    rintro rfl
    exact hne b hab
  · refine cell?_put_of_ne ?_
    rintro rfl
    exact hne a hab

end Twins

/-! ### Changing one of them -/

theorem Holds.realigned {m n : Nat} (hi : s.Holds i) (h : Item.Paired P i j) :
    Item.Paired (P.realigned s.size m n) i j := by
  cases h with
  | scalar x => exact .scalar x
  | object hab => exact .object (.inl ⟨hi, hab⟩)

/-- **Twins that have grown apart** are twins still, as long as cells with a partner are what they
were. -/
theorem Twins.realign (h : Twins P s t) (hs : s.Sound) (hsize : s.size ≤ s'.size)
    (hsize' : t.size ≤ t'.size)
    (hkeeps : ∀ a b, P a b → a < s.size → s'.cell? a = s.cell? a)
    (hkeeps' : ∀ a b, P a b → b < t.size → t'.cell? b = t.cell? b) :
    Twins (P.realigned s.size s'.size t'.size) s' t' := by
  constructor
  · rintro a b b' (⟨ha, hb⟩ | ⟨k, rfl, rfl⟩) (⟨ha', hb'⟩ | ⟨k', hk, rfl⟩)
    · exact h.left hb hb'
    · omega
    · omega
    · omega
  · rintro a a' b (⟨ha, hb⟩ | ⟨k, rfl, rfl⟩) (⟨ha', hb'⟩ | ⟨k', rfl, hk⟩)
    · exact h.right hb hb'
    · have hlt := (h.lt_size_iff hb).mp ha
      omega
    · have hlt := (h.lt_size_iff hb').mp ha'
      omega
    · omega
  · exact fun k => .inr ⟨k, rfl, rfl⟩
  · rintro a b (⟨ha, hab⟩ | ⟨k, rfl, rfl⟩)
    · rw [hkeeps a b hab ha, hkeeps' a b hab ((h.lt_size_iff hab).mp ha)]
      rcases rel_cases (h.cell hab) with ⟨hc, hd⟩ | ⟨c, d, hc, hd, hcd⟩
      · rw [hc, hd]
        exact .none
      · rw [hc, hd]
        exact .some (hcd.mono fun i hi j => ((hs a c hc).holds i hi).realigned)
    · rw [cell?_size_add, cell?_size_add]
      exact .none

end Store

end Winnow
