/-
Winnow/Proofs/Store/Places.lean

The parts of an item by their places.

A path of keys leads through sections only.  A way of places leads through anything: each
place is the number of an item among those in a cell (`part?`).  So what can be reached
from an item is what has a way of places, and an object is shared if it has two.

What is found under a path has a way of places (`exists_part?_of_find?`), and paths that part
have ways that part at the same point, because no place has two keys
(`exists_parts_of_not_prefix`).

An item is untouched from one store to another when all cells that can be reached from it
are what they were (`Untouched`).  Then its value is the same to any depth
(`Untouched.viewTo_eq`).
-/
import Winnow.Proofs.Store.Assigning

namespace Winnow

namespace Store

variable {s t u : Store} {i j : Item} {p q : List String} {places : List Nat}

/-! ### Ways of places -/

/-- The item to which places lead, each among the items of a cell. -/
def part? (s : Store) (i : Item) : (places : List Nat) → Option Item
  | [] => some i
  | n :: rest => match (i.address?.bind s.cell?).bind (·.items[n]?) with
    | some next => s.part? next rest
    | none => none

theorem part?_cons (n : Nat) (rest : List Nat) :
    s.part? i (n :: rest)
      = ((i.address?.bind s.cell?).bind (·.items[n]?)).bind fun next => s.part? next rest := by
  rw [part?]
  cases (i.address?.bind s.cell?).bind (·.items[n]?) <;> rfl

theorem part?_append (before after : List Nat) :
    s.part? i (before ++ after) = (s.part? i before).bind fun j => s.part? j after := by
  induction before generalizing i with
  | nil => rfl
  | cons n rest ih =>
    rw [List.cons_append, part?_cons, part?_cons]
    cases (i.address?.bind s.cell?).bind (·.items[n]?) with
    | none => rfl
    | some next => exact ih

/-- The place of an entry leads to what is in the entry. -/
theorem part?_cons_of_entry {entries : List (Value × Item)} {e : Value × Item} {n : Nat}
    (hentries : s.entries? i = some entries) (hn : entries[n]? = some e) (rest : List Nat) :
    s.part? i (n :: rest) = s.part? e.2 rest := by
  obtain ⟨a, rfl, hcell⟩ := entries?_eq_some_iff.mp hentries
  have hitem : (entries.map (·.2))[n]? = some e.2 := by rw [List.getElem?_map, hn, Option.map_some]
  rw [part?_cons, Item.address?, Option.bind_some, hcell, Option.bind_some, Cell.items, hitem,
    Option.bind_some]

/-- What is found under a path has a way of places. -/
theorem exists_part?_of_find? (h : s.find? i p = some j) : ∃ places, s.part? i places = some j := by
  induction p generalizing i with
  | nil => exact ⟨[], h⟩
  | cons key rest ih =>
    rw [find?_cons] at h
    obtain ⟨next, hnext, h⟩ := Option.bind_eq_some_iff.mp h
    obtain ⟨entries, hentries, hfind⟩ := Option.bind_eq_some_iff.mp hnext
    obtain ⟨n, hn⟩ := Entries.exists_getElem?_of_find? hfind
    obtain ⟨places, hplaces⟩ := ih h
    exact ⟨n :: places, (part?_cons_of_entry hentries hn places).trans hplaces⟩

/-- **Paths that part have ways of places that part**, by induction on both up to the
point where they part: there the keys are different, and so are the places. -/
theorem exists_parts_of_not_prefix {v w : Item} (hq : s.find? i q = some v)
    (hp : s.find? i p = some w) (hpart : ¬ q <+: p) :
    ∃ places others, s.part? i places = some v ∧ s.part? i others = some w ∧
      ¬ places <+: others := by
  induction q generalizing i p with
  | nil => exact absurd List.nil_prefix hpart
  | cons k q ih =>
    rw [find?_cons] at hq
    obtain ⟨next, hnext, hq⟩ := Option.bind_eq_some_iff.mp hq
    obtain ⟨entries, hentries, hfind⟩ := Option.bind_eq_some_iff.mp hnext
    obtain ⟨n, hn⟩ := Entries.exists_getElem?_of_find? hfind
    cases p with
    | nil =>
      obtain ⟨places, hplaces⟩ := exists_part?_of_find? hq
      exact ⟨n :: places, [], (part?_cons_of_entry hentries hn places).trans hplaces, hp, by simp⟩
    | cons k' p =>
      rw [find?_cons, hentries, Option.bind_some] at hp
      obtain ⟨next', hfind', hp⟩ := Option.bind_eq_some_iff.mp hp
      by_cases hk : k = k'
      · subst hk
        cases hfind.symm.trans hfind'
        obtain ⟨places, others, hplaces, hothers, hparted⟩ :=
          ih hq hp fun h => hpart (List.cons_prefix_cons.mpr ⟨rfl, h⟩)
        exact ⟨n :: places, n :: others, (part?_cons_of_entry hentries hn places).trans hplaces,
          (part?_cons_of_entry hentries hn others).trans hothers,
          fun h => hparted (List.cons_prefix_cons.mp h).2⟩
      · obtain ⟨n', hn'⟩ := Entries.exists_getElem?_of_find? hfind'
        obtain ⟨places, hplaces⟩ := exists_part?_of_find? hq
        obtain ⟨others, hothers⟩ := exists_part?_of_find? hp
        refine ⟨n :: places, n' :: others, (part?_cons_of_entry hentries hn places).trans hplaces,
          (part?_cons_of_entry hentries hn' others).trans hothers, fun h => ?_⟩
        -- one place does not have two keys
        rw [(List.cons_prefix_cons.mp h).1, hn'] at hn
        cases hn
        exact hk rfl

/-! ### Untouched items -/

/-- All cells that can be reached from an item are the same in another store. -/
def Untouched (s t : Store) (i : Item) : Prop :=
  ∀ places a c, s.part? i places = some (.object a) → s.cell? a = some c → t.cell? a = some c

theorem Untouched.growsTo (h : s.Untouched t i) (hgrows : t.GrowsTo u) : s.Untouched u i :=
  fun places a c hpart hc => hgrows a c (h places a c hpart hc)

theorem Untouched.part (h : s.Untouched t i) {c : Cell} {a : Nat} (hi : i = .object a)
    (hc : s.cell? a = some c) : ∀ j ∈ c.items, s.Untouched t j := by
  intro j hj places b d hpart hd
  obtain ⟨n, hn⟩ := List.getElem?_of_mem hj
  refine h (n :: places) b d ?_ hd
  rw [part?_cons, hi, Item.address?, Option.bind_some, hc, Option.bind_some, hn, Option.bind_some,
    hpart]

/-- What is found in an untouched item is untouched. -/
theorem Untouched.found (h : s.Untouched t i) (hfind : s.find? i p = some j) :
    s.Untouched t j := by
  obtain ⟨front, hfront⟩ := exists_part?_of_find? hfind
  intro places a c hpart hc
  refine h (front ++ places) a c ?_ hc
  rw [part?_append, hfront, Option.bind_some, hpart]

/-- In an untouched item the same is found. -/
theorem Untouched.find?_eq (h : s.Untouched t i) (hs : s.Sound) (hi : s.Holds i)
    (path : List String) : t.find? i path = s.find? i path := by
  refine find?_congr fun p a _ _ hp => ?_
  obtain ⟨places, hplaces⟩ := exists_part?_of_find? hp
  obtain ⟨c, hc⟩ := exists_cell? (hs.holds_of_find? hi hp)
  rw [h places a c hplaces hc, hc]

/-- **An untouched item has the value that it had**, to any depth. -/
theorem Untouched.viewTo_eq (hs : s.Sound) (hi : s.Holds i) (h : s.Untouched t i) (depth : Nat) :
    t.viewTo depth i = s.viewTo depth i := by
  induction depth generalizing i with
  | zero => cases i <;> rfl
  | succ depth ih =>
    cases i with
    | scalar x => rfl
    | object a =>
      obtain ⟨c, hc⟩ := exists_cell? hi
      have hparts : ∀ j ∈ c.items, t.viewTo depth j = s.viewTo depth j :=
        fun j hj => ih ((hs a c hc).holds j hj) (h.part rfl hc j hj)
      rw [viewTo, viewTo, h [] a c rfl hc, hc]
      cases c with
      | list items => exact congrArg Value.list (List.map_congr_left hparts)
      | tuple items => exact congrArg Value.tuple (List.map_congr_left hparts)
      | mapping entries =>
        refine congrArg Value.mapping (List.map_congr_left fun e he => ?_)
        exact congrArg _ (hparts e.2 (List.mem_map_of_mem he))
      | set members => rfl

end Store

end Winnow
