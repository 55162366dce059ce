/-
Winnow/Proofs/Yaml/Twins.lean

One document, read into two stores.

What a document is built of does not depend on what is in the store before, only on
the mark of the next float that is no number.  So a document is built in twins side by
side (`Build.Twins`): the same nodes have been met, and wait to be filled, in both; and
each step fails in both in the same way or comes to the same (`Build.Twins.item`,
`Build.Twins.contents`, `Build.Twins.run`).
-/
import Winnow.Proofs.Outcome
import Winnow.Proofs.Store.Twins
import Winnow.Yaml.Document

namespace Winnow.Yaml

open Store (Alongside)

variable {P : Pairing} {s t : Store}

/-- What has been built in twins, which were `s` and `t` before. -/
structure Build.Twins (P : Pairing) (s t : Store) (b c : Build) : Prop where
  graph : b.graph = c.graph
  alongside : Alongside P s t b.store c.store
  mark : b.store.nextMark = c.store.nextMark
  items : List.Forall₂ (fun e d => e.1 = d.1 ∧ Item.Paired P e.2 d.2) b.items c.items
  waiting : List.Forall₂ (fun v w => v.1 = w.1 ∧ P v.2 w.2) b.waiting c.waiting

/-- Two results, and what has been built for them. -/
def BuiltAlike {α : Type} (P : Pairing) (s t : Store) (R : α → α → Prop) (x y : α × Build) : Prop :=
  R x.1 y.1 ∧ Build.Twins P s t x.2 y.2

namespace Build.Twins

variable {b c : Build} {n : Nat} {i j : Item}

/-! ### Scalars -/

theorem text_eq (h : Twins P s t b c) (n : Nat) : b.text n = c.text n := by
  unfold text
  rw [h.graph]

theorem scalar?_eq (h : Twins P s t b c) (n : Nat) (tag : Tag) :
    b.scalar? n tag = c.scalar? n tag := by
  have htime : b.time n = c.time n := by
    unfold time
    rw [h.text_eq, h.graph]
  cases tag <;> simp only [scalar?, h.text_eq, h.mark, htime]

/-! ### Items -/

theorem lookup (h : Twins P s t b c) (n : Nat) :
    Option.Rel (Item.Paired P) (b.items.lookup n) (c.items.lookup n) := by
  have hitems := h.items
  generalize b.items = items at hitems
  generalize c.items = others at hitems
  induction hitems with
  | nil => exact .none
  | @cons e d _ _ hfirst _ ih =>
    obtain ⟨k, v⟩ := e
    obtain ⟨l, w⟩ := d
    obtain ⟨rfl, hvw⟩ := hfirst
    cases hkey : n == k with
    | true =>
      simp only [List.lookup_cons, hkey]
      exact .some hvw
    | false =>
      simp only [List.lookup_cons, hkey]
      exact ih

theorem remember (h : Twins P s t b c) (n : Nat) (hi : Item.Paired P i j) :
    BuiltAlike P s t (Item.Paired P) (b.remember n i) (c.remember n j) :=
  ⟨hi, h.graph, h.alongside, h.mark, .cons ⟨rfl, hi⟩ h.items, h.waiting⟩

theorem rememberScalar (h : Twins P s t b c) (n : Nat) (x : Scalar) :
    BuiltAlike P s t (Item.Paired P) (b.rememberScalar n x) (c.rememberScalar n x) := by
  cases x with
  | nan mark =>
    have hmark : Twins P s t { b with store := { b.store with nextMark := b.store.nextMark + 1 } }
        { c with store := { c.store with nextMark := c.store.nextMark + 1 } } :=
      ⟨h.graph, h.alongside.mark _ _, congrArg (· + 1) h.mark, h.items, h.waiting⟩
    exact hmark.remember n (.scalar _)
  | _ => exact h.remember n (.scalar _)

theorem begin (h : Twins P s t b c) (n : Nat) {cell cell' : Cell}
    (hcell : Cell.Paired P cell cell') :
    BuiltAlike P s t (Item.Paired P) (b.begin n cell) (c.begin n cell') := by
  have hadd := h.alongside.twins.add hcell
  have hbegun : Twins P s t
      { b with store := (b.store.add cell).2, waiting := b.waiting ++ [(n, b.store.size)] }
      { c with store := (c.store.add cell').2, waiting := c.waiting ++ [(n, c.store.size)] } :=
    ⟨h.graph, h.alongside.trans hadd, h.mark, h.items,
      List.rel_append h.waiting (.cons ⟨rfl, h.alongside.twins.aligned 0⟩ .nil)⟩
  exact hbegun.remember n (h.alongside.twins.paired_add cell cell')

theorem paired_emptyCell {tag : Tag} {cell : Cell} (h : emptyCell? tag = some cell) :
    Cell.Paired P cell cell := by
  cases tag <;> cases h
  · exact .list .nil
  · exact .mapping .nil
  · exact .set []
  · exact .list .nil
  · exact .list .nil

/-- **A node gives the same item** in twins. -/
theorem item (h : Twins P s t b c) (n : Nat) :
    OutcomesAlike (BuiltAlike P s t (Item.Paired P)) (b.item n) (c.item n) := by
  unfold Build.item
  rcases rel_cases (h.lookup n) with ⟨hb, hc⟩ | ⟨i, j, hb, hc, hi⟩ <;> rw [hb, hc]
  · dsimp only
    rw [h.graph, h.scalar?_eq]
    split
    · exact .bind_same _ fun x => .ok (h.rememberScalar n x)
    · split
      · rename_i hcell
        exact .ok (h.begin n (paired_emptyCell hcell))
      · exact .error _
  · exact .ok ⟨hi, h⟩

theorem itemRow (h : Twins P s t b c) (numbers : List Nat) :
    OutcomesAlike (BuiltAlike P s t (List.Forall₂ (Item.Paired P))) (b.itemRow numbers)
      (c.itemRow numbers) := by
  induction numbers generalizing b c with
  | nil => exact .ok ⟨.nil, h⟩
  | cons n rest ih =>
    refine (h.item n).bind ?_
    rintro ⟨i, b⟩ ⟨j, c⟩ ⟨hi, h⟩
    refine (ih h).bind ?_
    rintro ⟨row, b⟩ ⟨row', c⟩ ⟨hrow, h⟩
    exact .ok ⟨.cons hi hrow, h⟩

theorem entryRow (h : Twins P s t b c) {before before' : List (Value × Item)}
    (hbefore : Entries.Paired P before before') (numbers : List (Nat × Nat)) :
    OutcomesAlike (BuiltAlike P s t (Entries.Paired P)) (b.entryRow before numbers)
      (c.entryRow before' numbers) := by
  induction numbers generalizing b c before before' with
  | nil => exact .ok ⟨hbefore, h⟩
  | cons e rest ih =>
    refine (h.item e.1).bind ?_
    rintro ⟨_, b⟩ ⟨_, c⟩ ⟨_ | _, h⟩
    · refine (h.item e.2).bind ?_
      rintro ⟨i, b⟩ ⟨j, c⟩ ⟨hi, h⟩
      exact ih h (hbefore.insert _ hi)
    · exact .error _

theorem pairRow (h : Twins P s t b c) (numbers : List Nat) :
    OutcomesAlike (BuiltAlike P s t (List.Forall₂ (Item.Paired P))) (b.pairRow numbers)
      (c.pairRow numbers) := by
  induction numbers generalizing b c with
  | nil => exact .ok ⟨.nil, h⟩
  | cons n rest ih =>
    unfold Build.pairRow
    rw [h.graph]
    split
    · rename_i k v _
      refine (h.item k).bind ?_
      rintro ⟨i, b⟩ ⟨j, c⟩ ⟨hi, h⟩
      refine (h.item v).bind ?_
      rintro ⟨i', b⟩ ⟨j', c⟩ ⟨hi', h⟩
      have hcell : Cell.Paired P (.tuple [i, i']) (.tuple [j, j']) :=
        .tuple (.cons hi (.cons hi' .nil))
      have hadded : Twins P s t { b with store := (b.store.add (.tuple [i, i'])).2 }
          { c with store := (c.store.add (.tuple [j, j'])).2 } :=
        ⟨h.graph, h.alongside.trans (h.alongside.twins.add hcell), h.mark, h.items, h.waiting⟩
      refine (ih hadded).bind ?_
      rintro ⟨row, b⟩ ⟨row', c⟩ ⟨hrow, h'⟩
      exact .ok ⟨.cons (h.alongside.twins.paired_add (.tuple [i, i']) (.tuple [j, j'])) hrow, h'⟩
    · exact .error _

/-! ### Collections -/

theorem entriesOf (h : Twins P s t b c) (n : Nat) :
    OutcomesAlike (BuiltAlike P s t (Entries.Paired P)) (b.entriesOf n) (c.entriesOf n) := by
  unfold Build.entriesOf
  rw [h.graph]
  split
  · exact .error _
  · refine .bind_same _ fun g => ?_
    have hg : Twins P s t { b with graph := g } { c with graph := g } :=
      ⟨rfl, h.alongside, h.mark, h.items, h.waiting⟩
    exact hg.entryRow .nil _

/-- **A collection is filled with the same** in twins. -/
theorem contents (h : Twins P s t b c) (n : Nat) :
    OutcomesAlike (BuiltAlike P s t (Cell.Paired P)) (b.contents n) (c.contents n) := by
  unfold Build.contents
  rw [h.graph]
  split
  · exact (h.itemRow _).bind fun _ _ hrow => .ok ⟨.list hrow.1, hrow.2⟩
  · exact (h.pairRow _).bind fun _ _ hrow => .ok ⟨.list hrow.1, hrow.2⟩
  · exact (h.pairRow _).bind fun _ _ hrow => .ok ⟨.list hrow.1, hrow.2⟩
  · exact (h.entriesOf n).bind fun _ _ hrow => .ok ⟨.mapping hrow.1, hrow.2⟩
  · refine (h.entriesOf n).bind ?_
    rintro ⟨entries, b⟩ ⟨others, c⟩ ⟨hentries, h⟩
    have hkeys : entries.map (·.1) = others.map (·.1) := map_eq_of_forall₂ hentries And.left
    refine .ok ⟨?_, h⟩
    dsimp only
    rw [hkeys]
    exact .set _
  · exact .error _

theorem put (h : Twins P s t b c) {a a' : Nat} (ha : P a a') {cell cell' : Cell}
    (hcell : Cell.Paired P cell cell') :
    Twins P s t { b with store := b.store.put a cell } { c with store := c.store.put a' cell' } :=
  ⟨h.graph, h.alongside.trans (h.alongside.twins.put ha hcell), h.mark, h.items, h.waiting⟩

/-- **All collections are filled alike**, those met on the way included. -/
theorem run (h : Twins P s t b c) (fuel : Nat) :
    OutcomesAlike (Twins P s t) (run fuel b) (run fuel c) := by
  induction fuel generalizing b c with
  | zero => exact .ok h
  | succ fuel ih =>
    have hwaiting := h.waiting
    unfold Build.run
    rcases hb : b.waiting with _ | ⟨⟨n, a⟩, rest⟩ <;>
      rcases hc : c.waiting with _ | ⟨⟨m, a'⟩, rest'⟩ <;> rw [hb, hc] at hwaiting
    · exact .ok h
    · cases hwaiting
    · cases hwaiting
    · obtain ⟨⟨hn, ha⟩, hrest⟩ := List.forall₂_cons.mp hwaiting
      cases hn
      have hnext : Twins P s t { b with waiting := rest } { c with waiting := rest' } :=
        ⟨h.graph, h.alongside, h.mark, h.items, hrest⟩
      refine (hnext.contents n).bind ?_
      rintro ⟨cell, b⟩ ⟨cell', c⟩ ⟨hcell, h⟩
      exact ih (h.put ha hcell)

end Build.Twins

/-! ### Documents -/

/-- An item of a store and one of another that has been built in the same way. -/
def LoadedAlike (P : Pairing) (s t : Store) (x y : Item × Store) : Prop :=
  Item.Paired P x.1 y.1 ∧ Alongside P s t x.2 y.2

theorem build_alike (h : Store.Twins P s t) (hmark : s.nextMark = t.nextMark) (g : Graph)
    (root : Nat) : OutcomesAlike (LoadedAlike P s t) (build g root s) (build g root t) := by
  have hstart : Build.Twins P s t ⟨g, s, [], []⟩ ⟨g, t, [], []⟩ :=
    ⟨rfl, .refl h, hmark, .nil, .nil⟩
  refine (hstart.item root).bind ?_
  rintro ⟨i, b⟩ ⟨j, c⟩ ⟨hi, hbuild⟩
  exact (hbuild.run _).bind fun _ _ hdone => .ok ⟨hi, hdone.alongside⟩

/-- **A document that is read into twins** is the same in both, or faulty in the same way. -/
theorem load_alike (h : Store.Twins P s t) (hmark : s.nextMark = t.nextMark) (x : Supply) :
    OutcomesAlike (LoadedAlike P s t) (x.load s) (x.load t) := by
  refine .bind_same _ fun found => ?_
  cases found with
  | none => exact .ok ⟨.scalar _, .refl h⟩
  | some found => exact build_alike h hmark found.2 found.1

end Winnow.Yaml
