/-
Winnow/Proofs/Yaml/Objects.lean

The objects that are built from a document.

Building adds cells to a store and fills only cells that it has added, so what
was in the store before stays as it was.  `Build.Sound s` is the invariant of
all objects built so far on top of the store `s`: they are held and fit, and the
collections that wait have new cells.  Each step of building keeps it
(`adds_sound`), and so does filling (`run_sound`); so a document that is read
leaves a sound store (`build_sound`).
-/
import Winnow.Proofs.Store.Changing
import Winnow.Proofs.Yaml.Steps

namespace Winnow.Yaml

open Relation (ReflTransGen)
open Store (fits_list fits_tuple fits_set fits_mapping_nil growsTo_add holds_add)

namespace Build

variable {s : Store} {b b' : Build} {n : Nat} {i : Item}

/-- What is built so far on top of a store. -/
structure Sound (s : Store) (b : Build) : Prop where
  grows : s.GrowsTo b.store
  store : b.store.Sound
  items : ∀ e ∈ b.items, b.store.Holds e.2
  waiting : ∀ w ∈ b.waiting, s.size ≤ w.2

theorem Met.holds (hb : Sound s b) (h : b.Met i) : b.store.Holds i := by
  obtain ⟨n, hn⟩ := h
  obtain ⟨before, after, hitems, -⟩ := List.lookup_eq_some_iff.mp hn
  apply hb.items (n, i)
  rw [hitems]
  exact List.mem_append_right _ List.mem_cons_self

/-! ### Steps -/

theorem fits_emptyCell {t : Tag} {c : Cell} (h : emptyCell? t = some c) : s.Fits c := by
  cases t <;> cases h
  · exact fits_list nofun
  · exact fits_mapping_nil
  · exact fits_set
  · exact fits_list nofun
  · exact fits_list nofun

/-- A new cell that fits keeps all as it is. -/
theorem add_sound (hb : Sound s b) {c : Cell} (hc : b.store.Fits c) :
    Sound s { b with store := (b.store.add c).2 } :=
  have hgrows := growsTo_add b.store c
  ⟨hb.grows.trans hgrows, hb.store.add hc, fun e he => (hb.items e he).mono hgrows.size_le,
    hb.waiting⟩

/-- Every step keeps what is built sound. -/
theorem adds_sound (hb : Sound s b) (h : Adds b b') : Sound s b' := by
  cases h with
  | @scalar n x _ _ =>
    -- a mark that is taken changes no cell
    obtain ⟨mark, heq⟩ := b.rememberScalar_eq n x
    rw [heq]
    exact ⟨hb.grows, (Store.mark_leadsTo hb.store mark).sound,
      List.forall_mem_cons.mpr ⟨trivial, hb.items⟩, hb.waiting⟩
  | collection _ hcell =>
    have hadded := add_sound hb (fits_emptyCell hcell)
    refine ⟨hadded.grows, hadded.store, List.forall_mem_cons.mpr ⟨holds_add, hadded.items⟩,
      List.forall_mem_append.mpr ⟨hb.waiting, List.forall_mem_singleton.mpr ?_⟩⟩
    exact hb.grows.size_le
  | pair hitems => exact add_sound hb (fits_tuple fun i hi => (hitems i hi).holds hb)

theorem run_adds_sound (hb : Sound s b) (h : ReflTransGen Adds b b') : Sound s b' := by
  induction h with
  | refl => exact hb
  | tail _ hstep ih => exact adds_sound ih hstep

/-! ### Collections -/

theorem fits_of_row (hb : Sound s b) {before entries : List (Value × Item)}
    {written : List (Nat × Nat)} (hbefore : b.store.Fits (.mapping before))
    (h : Row b.items before written entries) : b.store.Fits (.mapping entries) := by
  induction h with
  | nil => exact hbefore
  | cons _ hvalue _ ih => exact ih (hbefore.insert _ (Met.holds hb ⟨_, hvalue⟩))

/-- What a collection is filled with fits. -/
theorem contents_sound {c : Cell} (hb : Sound s b) (h : b.contents n = .ok (c, b')) :
    Sound s b' ∧ b.store.size ≤ b'.store.size ∧ b'.store.Fits c := by
  obtain ⟨g, -, hadds, hfills⟩ := contents_met h
  have hstart : Sound s { b with graph := g } := ⟨hb.grows, hb.store, hb.items, hb.waiting⟩
  have hb' := run_adds_sound hstart hadds
  refine ⟨hb', (extends_of_adds hadds).size, ?_⟩
  generalize b.graph.tag n = tag at hfills
  cases hfills with
  | list _ hitems => exact fits_list fun i hi => (hitems i hi).elim (Met.holds hb') id
  | set _ => exact fits_set
  | mapping hrow => exact fits_of_row hb' fits_mapping_nil hrow

/-- Filling a cell that was added keeps what was there before. -/
theorem put_sound (hb : Sound s b) {c : Cell} (hc : b.store.Fits c) {a : Nat}
    (ha : s.size ≤ a) : Sound s { b with store := b.store.put a c } := by
  have hput := Store.put_leadsTo (a := a) hb.store hc
  refine ⟨fun x d hd => ?_, hput.sound, fun e he => hput.holds (hb.items e he), hb.waiting⟩
  have hx := Store.lt_size_of_cell? hd
  have hne : a ≠ x := by omega
  show (b.store.cells.setIfInBounds a c)[x]? = some d
  rw [Array.getElem?_setIfInBounds_ne hne]
  exact hb.grows x d hd

/-- All collections are filled soundly, those met on the way included. -/
theorem run_sound {fuel : Nat} (hb : Sound s b) (h : run fuel b = .ok b') :
    Sound s b' ∧ b.store.size ≤ b'.store.size := by
  induction fuel generalizing b with
  | zero =>
    cases h
    exact ⟨hb, Nat.le_refl _⟩
  | succ fuel ih =>
    rw [run] at h
    split at h
    · cases h
      exact ⟨hb, Nat.le_refl _⟩
    · rename_i m address rest hwaiting
      obtain ⟨⟨c, b₁⟩, hcontents, h⟩ := except_bind_eq_ok_iff.mp h
      -- the cell to be filled is a new one, as is every cell that waits
      have hall : ∀ w ∈ (m, address) :: rest, s.size ≤ w.2 := hwaiting ▸ hb.waiting
      obtain ⟨haddress, hrest⟩ := List.forall_mem_cons.mp hall
      have hfirst : Sound s { b with waiting := rest } := ⟨hb.grows, hb.store, hb.items, hrest⟩
      obtain ⟨hsecond, hsize, hc⟩ := contents_sound hfirst hcontents
      obtain ⟨hlast, hsize'⟩ := ih (put_sound hsecond hc haddress) h
      rw [Store.size_put] at hsize'
      exact ⟨hlast, Nat.le_trans hsize hsize'⟩

end Build

/-! ### Documents -/

/-- Building the objects of a graph only adds cells, and all of them fit. -/
theorem build_sound {g : Graph} {root : Nat} {s t : Store} {i : Item} (hs : s.Sound)
    (h : build g root s = .ok (i, t)) : s.GrowsTo t ∧ t.Sound ∧ t.Holds i := by
  obtain ⟨⟨j, b⟩, hitem, h⟩ := except_bind_eq_ok_iff.mp h
  obtain ⟨b', hrun, h⟩ := except_bind_eq_ok_iff.mp h
  cases h
  have hstart : Build.Sound s ⟨g, s, [], []⟩ := ⟨.refl s, hs, nofun, nofun⟩
  obtain ⟨hadds, hj⟩ := Build.item_met hitem
  have hfirst := Build.run_adds_sound hstart hadds
  obtain ⟨hlast, hsize⟩ := Build.run_sound hfirst hrun
  exact ⟨hlast.grows, hlast.store, (Build.Met.holds hfirst ⟨root, hj⟩).mono hsize⟩

/-- **Reading a document** leaves a sound store with everything in it that was
there before. -/
theorem load_sound {x : Supply} {s t : Store} {i : Item} (hs : s.Sound)
    (h : x.load s = .ok (i, t)) : s.GrowsTo t ∧ t.Sound ∧ t.Holds i := by
  obtain ⟨found, -, h⟩ := except_bind_eq_ok_iff.mp h
  cases found with
  | none =>
    cases h
    exact ⟨.refl _, hs, trivial⟩
  | some found => exact build_sound hs h

end Winnow.Yaml
