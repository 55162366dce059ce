/-
Winnow/Proofs/Store/Joined.lean

What merging makes anew.

Where both the lower and the upper entries have a mapping, the two are joined in a cell
that was not there before (`Laid.exists_joined`).  This is by induction on the path;
under one key only the upper entry with this key counts, and the cell that it makes is
behind all that there are (`Laid.exists_joinedKey`).
-/
import Winnow.Proofs.Store.Merging

namespace Winnow.Store

variable {s t : Store} {base upper merged under above : List (Value × Item)} {path : List String}
  {key : String} {value : Item}

/-- Two rows of entries have been merged under a key, in a cell at an address. -/
structure JoinedKey (s : Store) (under above : List (Value × Item)) (t : Store)
    (merged : List (Value × Item)) (key : String) (a : Nat) : Prop where
  isNew : s.size ≤ a
  find : Entries.find? (.text key) merged = some (.object a)
  inner : ∃ s₁ s₂ inner, s.GrowsTo s₁ ∧ s₁.Sound ∧ Laid s₁ under above s₂ inner ∧ s₂.GrowsTo t ∧
    t.entries? (.object a) = some inner

theorem JoinedKey.ofGrown {u : Store} {a : Nat} (h : JoinedKey u under above t merged key a)
    (hgrows : s.GrowsTo u) : JoinedKey s under above t merged key a := by
  obtain ⟨s₁, s₂, inner, hfirst, hrest⟩ := h.inner
  exact ⟨Nat.le_trans hgrows.size_le h.isNew, h.find, s₁, s₂, inner, hgrows.trans hfirst, hrest⟩

/-- Where both have a mapping under a key, the two are joined in a new cell. -/
theorem Laid.exists_joinedKey (h : Laid s base upper t merged) (hs : s.Sound)
    (hbase : s.Fits (.mapping base)) (hupper : s.Fits (.mapping upper))
    (hunder : (Entries.find? (.text key) base).bind s.entries? = some under)
    (hvalue : Entries.find? (.text key) upper = some value)
    (habove : s.entries? value = some above) :
    ∃ a, JoinedKey s under above t merged key a := by
  induction h with
  | done s base => cases hvalue
  | @replace s t base rest merged k v hnone hlaid ih =>
    obtain ⟨hv, hrest⟩ := fits_cons hupper
    by_cases hk : k = .text key
    · subst hk
      rw [(Entries.find?_text_cons _ v rest).1 rfl] at hvalue
      cases hvalue
      rw [hunder, habove] at hnone
      rcases hnone with hnone | hnone <;> cases hnone
    · rw [(Entries.find?_text_cons k v rest).2 hk] at hvalue
      refine ih hs (hbase.insert k hv) hrest ?_ hvalue habove
      rwa [Entries.find?_insert_of_ne hk]
  | @nest s t u base rest merged under' above' inner k v hunder' habove' hinner hlaid _ ih =>
    obtain ⟨hv, hrest⟩ := fits_cons hupper
    obtain ⟨hgrows, ht, hfits⟩ := hinner.sound hs (hs.fits_under hunder') (hs.fits_entries habove')
    have hstep : s.GrowsTo (t.add (.mapping inner)).2 := hgrows.trans (growsTo_add t _)
    have hbase' := (hbase.mono hstep.size_le).insert k (holds_add (s := t) (c := .mapping inner))
    have hrest' := hrest.mono hstep.size_le
    by_cases hk : k = .text key
    · subst hk
      rw [(Entries.find?_text_cons _ v rest).1 rfl] at hvalue
      cases hvalue
      cases hunder.symm.trans hunder'
      cases habove.symm.trans habove'
      have hlast := (hlaid.sound (ht.add hfits) hbase' hrest').1
      have hkept := (hlaid.key (ht.add hfits) hbase' hrest' key).eq_of_find?_eq_none
        (hupper.distinct _ rfl).find?_tail
      rw [Entries.find?_insert_self] at hkept
      refine ⟨t.size, hgrows.size_le, hkept, s, t, inner, .refl s, hs, hinner,
        (growsTo_add t _).trans hlast, ?_⟩
      exact (hlast.entries?_eq holds_add).trans entries?_add
    · rw [(Entries.find?_text_cons k v rest).2 hk] at hvalue
      have hunder'' : (Entries.find? (.text key) (Entries.insert k (t.add (.mapping inner)).1
          base)).bind (t.add (.mapping inner)).2.entries? = some under := by
        rw [Entries.find?_insert_of_ne hk, hstep.bind_entries?_eq hbase]
        exact hunder
      rw [← hstep.entries?_eq (hrest.holds_of_find? hvalue)] at habove
      obtain ⟨a, ha⟩ := ih (ht.add hfits) hbase' hrest' hunder'' hvalue habove
      exact ⟨a, ha.ofGrown hstep⟩

theorem exists_of_look_cons {entries : List (Value × Item)} {rest : List String} {i : Item}
    (h : s.look entries (key :: rest) = some i) (hrest : rest ≠ []) :
    ∃ j inner, Entries.find? (.text key) entries = some j ∧ s.entries? j = some inner ∧
      s.look inner rest = some i := by
  obtain ⟨j, hj, hfind⟩ := Option.bind_eq_some_iff.mp h
  rw [find?_eq_look hrest] at hfind
  obtain ⟨inner, hinner, hlook⟩ := Option.bind_eq_some_iff.mp hfind
  exact ⟨j, inner, hj, hinner, hlook⟩

/-- **Where both have a mapping under a path**, there is a new cell after merging. -/
theorem Laid.exists_joined (h : Laid s base upper t merged) (hs : s.Sound)
    (hbase : s.Fits (.mapping base)) (hupper : s.Fits (.mapping upper)) (hpath : path ≠ [])
    (hunder : (s.look base path).bind s.entries? = some under)
    (hvalue : s.look upper path = some value) (habove : s.entries? value = some above) :
    ∃ a, s.size ≤ a ∧ t.look merged path = some (.object a) := by
  induction path generalizing s base upper t merged with
  | nil => exact absurd rfl hpath
  | cons key rest ih =>
    obtain ⟨i, hi, hunderItem⟩ := Option.bind_eq_some_iff.mp hunder
    by_cases hrest : rest = []
    · subst hrest
      obtain ⟨j, hj, hij⟩ := Option.bind_eq_some_iff.mp hi
      cases hij
      obtain ⟨v, hv, hvalue⟩ := Option.bind_eq_some_iff.mp hvalue
      cases hvalue
      obtain ⟨a, ha⟩ := h.exists_joinedKey hs hbase hupper
        (by rw [hj, Option.bind_some]; exact hunderItem) hv habove
      exact ⟨a, ha.isNew, look_cons_some ha.find []⟩
    · obtain ⟨j, lower, hj, hlower, hlook⟩ := exists_of_look_cons hi hrest
      obtain ⟨v, higher, hv, hhigher, hlook'⟩ := exists_of_look_cons hvalue hrest
      obtain ⟨b, hb⟩ := h.exists_joinedKey hs hbase hupper
        (by rw [hj, Option.bind_some]; exact hlower) hv hhigher
      obtain ⟨s₁, s₂, inner, hfirst, hsound, hlaid, hlast, hinner⟩ := hb.inner
      have hlowerFits := hs.fits_entries hlower
      have hhigherFits := hs.fits_entries hhigher
      obtain ⟨-, hsound₂, hfits₂⟩ := hlaid.sound hsound (hlowerFits.mono hfirst.size_le)
        (hhigherFits.mono hfirst.size_le)
      -- the same one section further down
      obtain ⟨a, ha, hthere⟩ := ih hlaid hsound (hlowerFits.mono hfirst.size_le)
        (hhigherFits.mono hfirst.size_le) hrest
        (by rw [hfirst.look_eq hs hlowerFits, hlook, Option.bind_some,
          hfirst.entries?_eq (hlowerFits.holds_of_look hs hlook)]; exact hunderItem)
        (by rw [hfirst.look_eq hs hhigherFits]; exact hlook')
        (by rw [hfirst.entries?_eq (hhigherFits.holds_of_look hs hlook')]; exact habove)
      refine ⟨a, Nat.le_trans hfirst.size_le ha, ?_⟩
      rw [look_cons_entries hb.find hinner hrest, hlast.look_eq hsound₂ hfits₂, hthere]

end Winnow.Store
