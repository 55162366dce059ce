/-
Winnow/Proofs/Store/Trees.lean

Trees of sections.

A tree is a section in which sections and scalars are found under paths of texts,
and no object comes twice (`IsTree`).  Putting a scalar under a path leaves a tree:
the keys that are added are texts (`assign_addsTextKeys`), and the sections that are
added are new, so that nothing is shared (`unshared_of_walk`).
-/
import Winnow.Proofs.Store.Assigning

namespace Winnow

namespace Store

variable {s t u : Store} {i value : Item} {a : Nat} {entries : List (Value × Item)}
  {key : String} {path : List String}

/-! ### Keys -/

/-- The keys in the sections of a store are texts, or were there before. -/
def AddsTextKeys (s t : Store) : Prop :=
  ∀ a seen, t.entries? (.object a) = some seen → ∀ e ∈ seen,
    (∃ k, e.1 = .text k) ∨ ∃ old, s.entries? (.object a) = some old ∧ ∃ f ∈ old, f.1 = e.1

theorem AddsTextKeys.refl (s : Store) : s.AddsTextKeys s :=
  fun _ seen hseen e he => .inr ⟨seen, hseen, e, he, rfl⟩

theorem AddsTextKeys.trans (h : s.AddsTextKeys t) (k : t.AddsTextKeys u) : s.AddsTextKeys u := by
  intro a seen hseen e he
  rcases k a seen hseen e he with htext | ⟨old, hold, f, hf, hkey⟩
  · exact .inl htext
  · rw [← hkey]
    exact h a old hold f hf

theorem addsTextKeys_putEntry (hentries : s.entries? (.object a) = some entries) :
    s.AddsTextKeys (s.putEntry a entries key value) := by
  intro b seen hseen e he
  by_cases hb : b = a
  · subst hb
    rw [entries?_putEntry_self hentries] at hseen
    cases hseen
    rcases Entries.key_mem_insert he with hkey | ⟨f, hf, hkey⟩
    · exact .inl ⟨key, hkey⟩
    · exact .inr ⟨entries, hentries, f, hf, hkey⟩
  · rw [putEntry, entries?_congr (cell?_put_of_ne fun h => hb h.symm)] at hseen
    exact .inr ⟨seen, hseen, e, he, rfl⟩

theorem addsTextKeys_add : s.AddsTextKeys (s.add (.mapping [])).2 := by
  intro b seen hseen e he
  obtain ⟨_, hb, hcell⟩ := entries?_eq_some_iff.mp hseen
  cases hb
  by_cases hsmall : b < s.size
  · rw [(growsTo_add s _).cell?_eq hsmall] at hcell
    exact .inr ⟨seen, entries?_eq_some_iff.mpr ⟨b, rfl, hcell⟩, e, he, rfl⟩
  · have hlast : b = s.size := by
      have hlt := lt_size_of_cell? hcell
      rw [size_add] at hlt
      omega
    rw [hlast, cell?_add_self] at hcell
    cases hcell
    cases he

theorem addsTextKeys_addSection (hentries : s.entries? (.object a) = some entries) :
    s.AddsTextKeys (s.addSection a entries key) :=
  addsTextKeys_add.trans (addsTextKeys_putEntry ((growsTo_add s _).entries?_of_eq_some hentries))

theorem assign_addsTextKeys : s.AddsTextKeys (s.assign value i path).2 := by
  fun_induction Store.assign s value i path with
  | case1 => exact .refl _
  | case2 s i last address entries hentries haddress =>
    obtain ⟨-, hentries⟩ := entries?_eq_some_of_address haddress hentries
    exact addsTextKeys_putEntry hentries
  | case3 => exact .refl _
  | case4 s i key rest hrest address entries hentries haddress next hfind ih => exact ih
  | case5 s i key rest hrest address entries hentries haddress hfind fresh t hadd ih =>
    cases hadd
    obtain ⟨-, hentries⟩ := entries?_eq_some_of_address haddress hentries
    exact (addsTextKeys_addSection hentries).trans ih
  | case6 => exact .refl _

/-! ### Trees -/

/-- An item is a section, with sections and scalars in it that are found under paths
of texts, and no object comes twice. -/
structure IsTree (s : Store) (i : Item) : Prop where
  sound : s.Sound
  holds : s.Holds i
  unshared : s.Unshared i
  sections : ∀ q a, s.find? i q = some (.object a) →
    ∃ entries, s.entries? (.object a) = some entries ∧ ∀ e ∈ entries, ∃ k, e.1 = .text k

theorem unshared_of_walk {root : Item} {p : List String} {x : Scalar} (hs : s.Sound)
    (hroot : s.Holds root) (hun : s.Unshared root) (hp : s.find? root p = some i)
    (h : s.assign (.scalar x) i path = (.ok (), t)) : t.Unshared root := by
  generalize hvalue : Item.scalar x = value at h
  fun_induction Store.assign s value i path generalizing p with
  | case1 =>
    cases h
    exact hun
  | case2 s i last address entries hentries haddress =>
    cases h
    subst hvalue
    obtain ⟨rfl, hentries⟩ := entries?_eq_some_of_address haddress hentries
    exact hun.putScalar hp hentries x
  | case3 => cases h
  | case4 s i key rest hrest address entries hentries haddress next hfind ih =>
    have hnext : s.find? root (p ++ [key]) = some next := by
      rw [find?_append_key hp hentries, hfind]
    exact ih hs hroot hun hnext h
  | case5 s i key rest hrest address entries hentries haddress hfind fresh t hadd ih =>
    cases hadd
    obtain ⟨rfl, hentries⟩ := entries?_eq_some_of_address haddress hentries
    have hstep : s.LeadsTo (s.addSection address entries key) := addSection_leadsTo hs hentries
    have hnew : (s.addSection address entries key).find? root (p ++ [key])
        = some (.object s.size) :=
      (find?_addSection_append hs hroot hun hp hentries).mpr ⟨rfl, rfl⟩
    exact ih hstep.sound (hstep.holds hroot) (hun.addSection hs hroot hp hentries) hnew h
  | case6 => cases h

/-- Putting a scalar under a path of a tree leaves a tree. -/
theorem IsTree.assign {x : Scalar} (hi : s.IsTree i) (hpath : path ≠ [])
    (h : s.assign (.scalar x) i path = (.ok (), t)) : t.IsTree i := by
  have hassigned := assign_assigned hi.sound hi.holds hi.unshared hpath h
  have hvalue : s.Holds (.scalar x) := trivial
  have hstep := assign_leadsTo hi.sound hvalue hi.holds path
  have hkeys : s.AddsTextKeys (s.assign (.scalar x) i path).2 := assign_addsTextKeys
  rw [h] at hstep hkeys
  refine ⟨hstep.sound, hstep.holds hi.holds,
    unshared_of_walk (p := []) hi.sound hi.holds hi.unshared rfl h, fun q a hq => ?_⟩
  -- whatever its entries are, their keys are texts
  have htexts (seen : List (Value × Item)) (hseen : t.entries? (.object a) = some seen)
      (hold : ∀ old, s.entries? (.object a) = some old → ∀ f ∈ old, ∃ k, f.1 = .text k) :
      ∀ e ∈ seen, ∃ k, e.1 = .text k := by
    intro e he
    rcases hkeys a seen hseen e he with htext | ⟨old, hentries, f, hf, hkey⟩
    · exact htext
    · exact hkey ▸ hold old hentries f hf
  by_cases hbehind : path <+: q
  · -- nothing is found behind a scalar
    obtain ⟨rest, rfl⟩ := hbehind
    rw [hassigned.there] at hq
    cases rest <;> cases hq
  by_cases hway : q <+: path
  · have hne : q ≠ path := by
      rintro rfl
      exact hbehind hway
    obtain ⟨b, seen, hb, hseen⟩ := hassigned.sections hway hne
    cases hb.symm.trans hq
    refine ⟨seen, hseen, htexts seen hseen fun old hentries => ?_⟩
    cases hbefore : s.find? i q with
    | some w =>
      cases (hassigned.kept q w hway hne hbefore).symm.trans hq
      obtain ⟨old', hentries', hall⟩ := hi.sections q a hbefore
      cases hentries.symm.trans hentries'
      exact hall
    | none =>
      -- a new section was no cell before
      have hnew := hassigned.new q a hway hne hbefore hq
      obtain ⟨_, hb, hcell⟩ := entries?_eq_some_iff.mp hentries
      cases hb
      have hlt := lt_size_of_cell? hcell
      omega
  · rw [hassigned.others q hbehind hway] at hq
    obtain ⟨old, hentries, hall⟩ := hi.sections q a hq
    obtain ⟨_, hb, hcell⟩ := entries?_eq_some_iff.mp hentries
    cases hb
    refine ⟨old, entries?_eq_some_iff.mpr ⟨a, rfl, ?_⟩, hall⟩
    refine hassigned.frame a _ hcell fun q' hq' _ hthere => hway ?_
    exact hi.unshared q q' a hq hthere ▸ hq'

end Store

end Winnow
