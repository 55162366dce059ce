/-
Winnow/Proofs/Yaml/Steps.lean

The steps in which the objects of a document are built.

Before a collection is filled, its parts are met: a scalar is remembered, the cell of another
collection is added and waits, or the cell of a pair is added (`Build.Adds`).  Whatever is met
on the way comes of such steps (`item_met`, `contents_met`), so an invariant is shown for one
step.  What all steps have in common is that they add (`Build.Extends`).
-/
import Mathlib.Logic.Relation
import Winnow.Proofs.Outcome
import Winnow.Proofs.Store.Sound
import Winnow.Yaml.Document

namespace Winnow.Yaml

open Relation (ReflTransGen)

theorem Graph.tag_of_vertex? {g : Graph} {n : Nat} {v : Vertex} (h : g.vertex? n = some v) :
    g.tag n = v.tag := by
  rw [tag, h]
  rfl

/-- Entries come of those before them and of written ones, the items of their nodes being
those that are met. -/
inductive Row (met : List (Nat × Item)) : (before : List (Value × Item)) →
    (written : List (Nat × Nat)) → (entries : List (Value × Item)) → Prop
  | nil {before : List (Value × Item)} : Row met before [] before
  | cons {k v : Nat} {x : Scalar} {i : Item} {before entries : List (Value × Item)}
      {rest : List (Nat × Nat)} (hkey : met.lookup k = some (.scalar x))
      (hvalue : met.lookup v = some i)
      (hrest : Row met (Entries.insert (.scalar x) i before) rest entries) :
      Row met before ((k, v) :: rest) entries

/-- What is met later does not count. -/
theorem Row.mono {met met' : List (Nat × Item)} {before entries : List (Value × Item)}
    {written : List (Nat × Nat)} (hmet : ∀ n i, met.lookup n = some i → met'.lookup n = some i)
    (h : Row met before written entries) : Row met' before written entries := by
  induction h with
  | nil => exact .nil
  | cons hkey hvalue _ ih => exact .cons (hmet _ _ hkey) (hmet _ _ hvalue) ih

namespace Build

variable {b b' : Build} {n : Nat} {i : Item}

/-- An item is that of a node that has been met. -/
def Met (b : Build) (i : Item) : Prop := ∃ n, b.items.lookup n = some i

/-- A step of building: a node is met for the first time, or a pair of items is added. -/
inductive Adds (b : Build) : Build → Prop
  | scalar {n : Nat} {x : Scalar} : b.items.lookup n = none →
      b.scalar? n (b.graph.tag n) = some (.ok x) → Adds b (b.rememberScalar n x).2
  | collection {n : Nat} {c : Cell} : b.items.lookup n = none →
      emptyCell? (b.graph.tag n) = some c → Adds b (b.begin n c).2
  | pair {items : List Item} : (∀ i ∈ items, b.Met i) →
      Adds b { b with store := (b.store.add (.tuple items)).2 }

/-! ### What is kept -/

/-- What all steps of building have in common.  For each object that waits a node is met. -/
structure Extends (b b' : Build) : Prop where
  graph : b'.graph = b.graph
  items : ∀ n i, b.items.lookup n = some i → b'.items.lookup n = some i
  size : b.store.size ≤ b'.store.size
  count : b'.waiting.length + b.items.length ≤ b.waiting.length + b'.items.length

theorem Extends.refl (b : Build) : Extends b b :=
  ⟨rfl, fun _ _ h => h, Nat.le_refl _, Nat.le_refl _⟩

theorem Extends.trans {c : Build} (h : Extends b b') (k : Extends b' c) : Extends b c := by
  refine ⟨k.graph.trans h.graph, fun n i hn => k.items n i (h.items n i hn),
    Nat.le_trans h.size k.size, ?_⟩
  have hfirst := h.count
  have hsecond := k.count
  omega

theorem Extends.met (h : Extends b b') (hi : b.Met i) : b'.Met i :=
  hi.imp fun n hn => h.items n i hn

theorem lookup_cons_of_fresh {met : List (Nat × Item)} (hfresh : met.lookup n = none) (i : Item)
    {m : Nat} {j : Item} (hm : met.lookup m = some j) : ((n, i) :: met).lookup m = some j := by
  have hne : (m == n) = false := by
    rw [beq_eq_false_iff_ne]
    rintro rfl
    cases hfresh.symm.trans hm
  rw [List.lookup_cons, hne]
  exact hm

/-- Only a mark may be taken where a scalar is remembered. -/
theorem rememberScalar_eq (b : Build) (n : Nat) (x : Scalar) : ∃ mark,
    (b.rememberScalar n x).2 = { b with
      store := { b.store with nextMark := mark }
      items := (n, .scalar x) :: b.items } := by
  cases x <;> exact ⟨_, rfl⟩

theorem Adds.extends (h : Adds b b') : Extends b b' := by
  cases h with
  | @scalar n x hfresh _ =>
    obtain ⟨mark, heq⟩ := b.rememberScalar_eq n x
    rw [heq]
    refine ⟨rfl, fun m j hm => lookup_cons_of_fresh hfresh _ hm, Nat.le_refl _, ?_⟩
    show b.waiting.length + b.items.length ≤ b.waiting.length + (b.items.length + 1)
    omega
  | @collection n c hfresh _ =>
    refine ⟨rfl, fun m j hm => lookup_cons_of_fresh hfresh _ hm,
      (Store.growsTo_add b.store c).size_le, ?_⟩
    show (b.waiting ++ [_]).length + b.items.length ≤ b.waiting.length + (b.items.length + 1)
    rw [List.length_append, List.length_singleton]
    omega
  | pair _ =>
    exact ⟨rfl, fun _ _ hm => hm, (Store.growsTo_add b.store _).size_le, Nat.le_refl _⟩

/-- What a run of steps has in common with its beginning. -/
theorem extends_of_adds (h : ReflTransGen Adds b b') : Extends b b' := by
  induction h with
  | refl => exact .refl b
  | tail _ hstep ih => exact ih.trans hstep.extends

/-! ### What is met -/

theorem item_met (h : b.item n = .ok (i, b')) :
    ReflTransGen Adds b b' ∧ b'.items.lookup n = some i := by
  unfold item at h
  split at h
  · rename_i hlookup
    cases h
    exact ⟨.refl, hlookup⟩
  · rename_i hfresh
    dsimp only at h
    split at h
    · rename_i hscalar
      obtain ⟨x, rfl, h⟩ := except_bind_eq_ok_iff.mp h
      obtain ⟨rfl, rfl⟩ := Prod.ext_iff.mp (Except.ok.inj h)
      exact ⟨.single (.scalar hfresh hscalar), List.lookup_cons_self⟩
    · split at h
      · rename_i hcell
        cases h
        exact ⟨.single (.collection hfresh hcell), List.lookup_cons_self⟩
      · cases h

theorem itemRow_met {numbers : List Nat} {row : List Item}
    (h : b.itemRow numbers = .ok (row, b')) :
    ReflTransGen Adds b b' ∧ ∀ i ∈ row, b'.Met i := by
  induction numbers generalizing b row with
  | nil =>
    cases h
    exact ⟨.refl, nofun⟩
  | cons n rest ih =>
    obtain ⟨⟨i, b₁⟩, hitem, h⟩ := except_bind_eq_ok_iff.mp h
    obtain ⟨⟨tail, b₂⟩, hrow, h⟩ := except_bind_eq_ok_iff.mp h
    cases h
    obtain ⟨hfirst, hi⟩ := item_met hitem
    obtain ⟨hrest, htail⟩ := ih hrow
    exact ⟨hfirst.trans hrest,
      List.forall_mem_cons.mpr ⟨(extends_of_adds hrest).met ⟨n, hi⟩, htail⟩⟩

/-- The pairs of an ordered mapping have cells of their own. -/
theorem pairRow_met {numbers : List Nat} {row : List Item}
    (h : b.pairRow numbers = .ok (row, b')) :
    ReflTransGen Adds b b' ∧ ∀ i ∈ row, b'.store.Holds i := by
  induction numbers generalizing b row with
  | nil =>
    cases h
    exact ⟨.refl, nofun⟩
  | cons n rest ih =>
    rw [pairRow] at h
    split at h
    · obtain ⟨⟨key, b₁⟩, hkey, h⟩ := except_bind_eq_ok_iff.mp h
      obtain ⟨⟨value, b₂⟩, hvalue, h⟩ := except_bind_eq_ok_iff.mp h
      obtain ⟨⟨tail, b₃⟩, hrow, h⟩ := except_bind_eq_ok_iff.mp h
      cases h
      obtain ⟨hfirst, hk⟩ := item_met hkey
      obtain ⟨hsecond, hv⟩ := item_met hvalue
      have hboth : ∀ i ∈ [key, value], b₂.Met i := List.forall_mem_cons.mpr
        ⟨(extends_of_adds hsecond).met ⟨_, hk⟩, List.forall_mem_singleton.mpr ⟨_, hv⟩⟩
      obtain ⟨hrest, htail⟩ := ih hrow
      exact ⟨((hfirst.trans hsecond).tail (.pair hboth)).trans hrest,
        List.forall_mem_cons.mpr ⟨Store.holds_add.mono (extends_of_adds hrest).size, htail⟩⟩
    · cases h

theorem entryRow_met {written : List (Nat × Nat)} {before entries : List (Value × Item)}
    (h : b.entryRow before written = .ok (entries, b')) :
    ReflTransGen Adds b b' ∧ Row b'.items before written entries := by
  induction written generalizing b before with
  | nil =>
    cases h
    exact ⟨.refl, .nil⟩
  | cons e rest ih =>
    obtain ⟨⟨key, b₁⟩, hkey, h⟩ := except_bind_eq_ok_iff.mp h
    cases key with
    | object a => cases h
    | scalar x =>
      obtain ⟨⟨value, b₂⟩, hvalue, h⟩ := except_bind_eq_ok_iff.mp h
      obtain ⟨hfirst, hx⟩ := item_met hkey
      obtain ⟨hsecond, hi⟩ := item_met hvalue
      obtain ⟨hrest, hrow⟩ := ih h
      have hlast := extends_of_adds hrest
      have hboth := (extends_of_adds hsecond).trans hlast
      exact ⟨(hfirst.trans hsecond).trans hrest,
        .cons (hboth.items _ _ hx) (hlast.items _ _ hi) hrow⟩

/-! ### Collections -/

/-- A graph is that of a build, or what is left of it when the merges are taken out of a
mapping. -/
def Unmerges (b : Build) (n : Nat) (g : Graph) : Prop :=
  g = b.graph ∨ ∃ written, b.graph.entries? n = some written ∧ b.graph.flatten n = .ok g

theorem entriesOf_met {entries : List (Value × Item)} (h : b.entriesOf n = .ok (entries, b')) :
    ∃ g, b.Unmerges n g ∧ ReflTransGen Adds { b with graph := g } b' ∧
      Row b'.items [] ((g.entries? n).getD []) entries := by
  unfold entriesOf at h
  split at h
  · cases h
  · rename_i written hwritten
    obtain ⟨g, hflatten, h⟩ := except_bind_eq_ok_iff.mp h
    exact ⟨g, .inr ⟨written, hwritten, hflatten⟩, entryRow_met h⟩

/-- What a collection of a type is filled with, where `g` is the graph. -/
inductive Fills (b : Build) (g : Graph) (n : Nat) : Tag → Cell → Prop
  | list {tag : Tag} {items : List Item} (htag : tag ≠ .mapping)
      (hitems : ∀ i ∈ items, b.Met i ∨ b.store.Holds i) : Fills b g n tag (.list items)
  | set {tag : Tag} {members : List Value} (htag : tag ≠ .mapping) : Fills b g n tag (.set members)
  | mapping {entries : List (Value × Item)}
      (hrow : Row b.items [] ((g.entries? n).getD []) entries) :
      Fills b g n .mapping (.mapping entries)

/-- What a collection is filled with comes of steps of building. -/
theorem contents_met {c : Cell} (h : b.contents n = .ok (c, b')) :
    ∃ g, b.Unmerges n g ∧ ReflTransGen Adds { b with graph := g } b' ∧
      b'.Fills g n (b.graph.tag n) c := by
  unfold contents at h
  split at h
  · rename_i hvertex
    obtain ⟨⟨row, b₁⟩, hrow, h⟩ := except_bind_eq_ok_iff.mp h
    cases h
    obtain ⟨hadds, hmet⟩ := itemRow_met hrow
    rw [Graph.tag_of_vertex? hvertex]
    exact ⟨b.graph, .inl rfl, hadds, .list nofun fun i hi => .inl (hmet i hi)⟩
  · rename_i hvertex
    obtain ⟨⟨row, b₁⟩, hrow, h⟩ := except_bind_eq_ok_iff.mp h
    cases h
    obtain ⟨hadds, hholds⟩ := pairRow_met hrow
    rw [Graph.tag_of_vertex? hvertex]
    exact ⟨b.graph, .inl rfl, hadds, .list nofun fun i hi => .inr (hholds i hi)⟩
  · rename_i hvertex
    obtain ⟨⟨row, b₁⟩, hrow, h⟩ := except_bind_eq_ok_iff.mp h
    cases h
    obtain ⟨hadds, hholds⟩ := pairRow_met hrow
    rw [Graph.tag_of_vertex? hvertex]
    exact ⟨b.graph, .inl rfl, hadds, .list nofun fun i hi => .inr (hholds i hi)⟩
  · rename_i hvertex
    obtain ⟨⟨entries, b₁⟩, hentries, h⟩ := except_bind_eq_ok_iff.mp h
    cases h
    obtain ⟨g, hg, hadds, hrow⟩ := entriesOf_met hentries
    rw [Graph.tag_of_vertex? hvertex]
    exact ⟨g, hg, hadds, .mapping hrow⟩
  · rename_i hvertex
    obtain ⟨⟨entries, b₁⟩, hentries, h⟩ := except_bind_eq_ok_iff.mp h
    cases h
    obtain ⟨g, hg, hadds, -⟩ := entriesOf_met hentries
    rw [Graph.tag_of_vertex? hvertex]
    exact ⟨g, hg, hadds, .set nofun⟩
  · cases h

end Build

end Winnow.Yaml
