/-
Winnow/Proofs/Store/Changing.lean

Changes that keep a store sound.

New cells that fit may be added one after another (`AddsTo`); so a value is put
into a store (`place_addsTo`).  A change of a cell is none that only adds, but
it keeps the addresses good and the store sound (`LeadsTo`).  This holds of
putting an item under a path, whether all goes well or not (`assign_leadsTo`),
and of changing a part of an object (`setAt_leadsTo`).
-/
import Winnow.Proofs.Outcome
import Winnow.Proofs.Store.Sound

namespace Winnow

/-! ### Values whose keys come once -/

namespace Value

open Entries (DistinctKeys)

mutual

/-- No key of a mapping in a value comes twice. -/
def Proper : Value → Prop
  | .scalar _ => True
  | .list values => AllProper values
  | .tuple values => AllProper values
  | .mapping entries => DistinctKeys entries ∧ EntriesProper entries
  | .set _ => True

/-- No key of a mapping in values comes twice. -/
def AllProper : List Value → Prop
  | [] => True
  | v :: rest => Proper v ∧ AllProper rest

/-- No key of a mapping in the values of entries comes twice. -/
def EntriesProper : List (Value × Value) → Prop
  | [] => True
  | (_, v) :: rest => Proper v ∧ EntriesProper rest

end

end Value

namespace Store

open Entries (DistinctKeys)

variable {s t u : Store} {i value : Item} {c : Cell} {a : Nat}

/-! ### Adding cells one after another -/

/-- A store comes from another by adding cells that fit. -/
inductive AddsTo (s : Store) : Store → Prop
  | refl : AddsTo s s
  | add {t : Store} {c : Cell} : AddsTo s t → t.Fits c → AddsTo s (t.add c).2

namespace AddsTo

theorem trans (h : s.AddsTo t) (k : t.AddsTo u) : s.AddsTo u := by
  induction k with
  | refl => exact h
  | add _ hc ih => exact ih.add hc

theorem growsTo (h : s.AddsTo t) : s.GrowsTo t := by
  induction h with
  | refl => exact .refl s
  | add _ _ ih => exact ih.trans (growsTo_add _ _)

theorem sound (h : s.AddsTo t) (hs : s.Sound) : t.Sound := by
  induction h with
  | refl => exact hs
  | add _ hc ih => exact ih.add hc

end AddsTo

/-! ### Putting values into cells -/

theorem fits_list {items : List Item} (h : ∀ i ∈ items, s.Holds i) : s.Fits (.list items) :=
  ⟨h, nofun⟩

theorem fits_tuple {items : List Item} (h : ∀ i ∈ items, s.Holds i) : s.Fits (.tuple items) :=
  ⟨h, nofun⟩

theorem fits_set {members : List Value} : s.Fits (.set members) := ⟨nofun, nofun⟩

theorem keys_placeEntries (s : Store) (entries : List (Value × Value)) :
    (s.placeEntries entries).1.map (·.1) = entries.map (·.1) := by
  induction entries generalizing s with
  | nil => rfl
  | cons e rest ih => exact congrArg (e.1 :: ·) (ih (s.place e.2).2)

mutual

/-- Putting a value into a store adds cells, and what stands for it is held. -/
theorem place_addsTo (s : Store) (v : Value) (hv : v.Proper) :
    s.AddsTo (s.place v).2 ∧ (s.place v).2.Holds (s.place v).1 := by
  match v, hv with
  | .scalar x, _ => exact ⟨.refl, trivial⟩
  | .list values, hv =>
    obtain ⟨hadds, hholds⟩ := placeAll_addsTo s values hv
    exact ⟨hadds.add (fits_list hholds), holds_add⟩
  | .tuple values, hv =>
    obtain ⟨hadds, hholds⟩ := placeAll_addsTo s values hv
    exact ⟨hadds.add (fits_tuple hholds), holds_add⟩
  | .mapping entries, hv =>
    obtain ⟨hdistinct, hproper⟩ := hv
    obtain ⟨hadds, hholds⟩ := placeEntries_addsTo s entries hproper
    have hkeys := hdistinct.of_keys (keys_placeEntries s entries)
    exact ⟨hadds.add (fits_mapping.mpr ⟨hholds, hkeys⟩), holds_add⟩
  | .set members, _ => exact ⟨AddsTo.refl.add fits_set, holds_add⟩

theorem placeAll_addsTo (s : Store) (values : List Value) (hv : Value.AllProper values) :
    s.AddsTo (s.placeAll values).2 ∧
      ∀ i ∈ (s.placeAll values).1, (s.placeAll values).2.Holds i := by
  match values, hv with
  | [], _ => exact ⟨.refl, nofun⟩
  | v :: rest, ⟨hfirst, hrest⟩ =>
    obtain ⟨hadds, hholds⟩ := place_addsTo s v hfirst
    obtain ⟨hadds', hholds'⟩ := placeAll_addsTo (s.place v).2 rest hrest
    exact ⟨hadds.trans hadds',
      List.forall_mem_cons.mpr ⟨hholds.mono hadds'.growsTo.size_le, hholds'⟩⟩

theorem placeEntries_addsTo (s : Store) (entries : List (Value × Value))
    (hv : Value.EntriesProper entries) :
    s.AddsTo (s.placeEntries entries).2 ∧
      ∀ e ∈ (s.placeEntries entries).1, (s.placeEntries entries).2.Holds e.2 := by
  match entries, hv with
  | [], _ => exact ⟨.refl, nofun⟩
  | (k, v) :: rest, ⟨hfirst, hrest⟩ =>
    obtain ⟨hadds, hholds⟩ := place_addsTo s v hfirst
    obtain ⟨hadds', hholds'⟩ := placeEntries_addsTo (s.place v).2 rest hrest
    exact ⟨hadds.trans hadds',
      List.forall_mem_cons.mpr ⟨hholds.mono hadds'.growsTo.size_le, hholds'⟩⟩

end

/-! ### Changing cells -/

/-- The addresses of a store are good in another, which is sound. -/
structure LeadsTo (s t : Store) : Prop where
  size_le : s.size ≤ t.size
  sound : t.Sound

namespace LeadsTo

theorem refl (hs : s.Sound) : s.LeadsTo s := ⟨Nat.le_refl _, hs⟩

theorem trans (h : s.LeadsTo t) (k : t.LeadsTo u) : s.LeadsTo u :=
  ⟨Nat.le_trans h.size_le k.size_le, k.sound⟩

theorem holds (h : s.LeadsTo t) (hi : s.Holds i) : t.Holds i := hi.mono h.size_le

end LeadsTo

theorem AddsTo.leadsTo (h : s.AddsTo t) (hs : s.Sound) : s.LeadsTo t :=
  ⟨h.growsTo.size_le, h.sound hs⟩

theorem put_leadsTo (hs : s.Sound) (hc : s.Fits c) : s.LeadsTo (s.put a c) :=
  ⟨Nat.le_of_eq size_put.symm, hs.put hc⟩

theorem mark_leadsTo (hs : s.Sound) (m : Nat) : s.LeadsTo { s with nextMark := m } :=
  ⟨Nat.le_refl _, fun a c hc => ⟨(hs a c hc).holds, (hs a c hc).distinct⟩⟩

/-! ### Putting items under paths -/

theorem putEntry_leadsTo (hs : s.Sound) {entries : List (Value × Item)}
    (hentries : s.Fits (.mapping entries)) (hvalue : s.Holds value) (key : String) :
    s.LeadsTo (s.putEntry a entries key value) :=
  put_leadsTo hs (hentries.insert (.text key) hvalue)

/-- Putting an item under a path keeps a store sound, also where it fails. -/
theorem assign_leadsTo (hs : s.Sound) (hvalue : s.Holds value) (hi : s.Holds i)
    (path : List String) : s.LeadsTo (s.assign value i path).2 := by
  fun_induction Store.assign s value i path with
  | case1 => exact .refl hs
  | case2 s i last address entries hentries haddress =>
    exact putEntry_leadsTo hs (hs.fits_entries hentries) hvalue last
  | case3 => exact .refl hs
  | case4 s i key rest hrest address entries hentries haddress next hfind ih =>
    exact ih hs hvalue ((hs.fits_entries hentries).holds_of_find? hfind)
  | case5 s i key rest hrest address entries hentries haddress hfind fresh t hadd ih =>
    cases hadd
    -- the new section is added first, and then put under the key
    have hadded : s.LeadsTo (s.add (.mapping [])).2 :=
      (AddsTo.refl.add fits_mapping_nil).leadsTo hs
    have hfits := (hs.fits_entries hentries).mono hadded.size_le
    have hput := putEntry_leadsTo (a := address) hadded.sound hfits holds_add key
    have hstep := hadded.trans hput
    exact hstep.trans (ih hput.sound (hstep.holds hvalue) (hput.holds holds_add))
  | case6 => exact .refl hs

/-! ### Changing parts of objects -/

theorem setElement_leadsTo (hs : s.Sound) (hvalue : s.Holds value) {key : Value}
    (h : s.setElement i key value = .ok t) : s.LeadsTo t := by
  unfold setElement at h
  split at h
  · rename_i address entries haddress hcell
    rw [haddress, Option.bind_some] at hcell
    split at h
    · cases h
    · cases h
      exact put_leadsTo hs ((hs _ _ hcell).insert key hvalue)
  · rename_i address items haddress hcell
    rw [haddress, Option.bind_some] at hcell
    obtain ⟨n, -, h⟩ := except_bind_eq_ok_iff.mp h
    cases h
    refine put_leadsTo hs (fits_list fun x hx => ?_)
    rcases List.mem_or_eq_of_mem_set hx with hx | rfl
    · exact (hs _ _ hcell).holds x hx
    · exact hvalue
  · cases h

/-- Changing a part of an object keeps a store sound. -/
theorem setAt_leadsTo (hs : s.Sound) (hvalue : s.Holds value) {path : List Value}
    (h : s.setAt i value path = .ok t) : s.LeadsTo t := by
  fun_induction Store.setAt s i value path with
  | case1 =>
    cases h
    exact .refl hs
  | case2 => exact setElement_leadsTo hs hvalue h
  | case3 i key rest hrest ih =>
    obtain ⟨next, -, h⟩ := except_bind_eq_ok_iff.mp h
    exact ih next h

end Store

end Winnow
