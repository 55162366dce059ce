/-
Winnow/Proofs/Store/TextKeys.lean

Sections with texts for keys.

What a program says by paths is in mappings that have texts for keys throughout
(`TextKeyed`).  Keys of other kinds come from files and from objects that are handed
over only.  A tree that is built of such mappings is one of them
(`TextItem.textKeyed`).
-/
import Winnow.Proofs.Store.Merging

namespace Winnow

namespace Store

variable {s t : Store} {i j : Item} {entries : List (Value × Item)}

/-- All keys of entries are texts, and so are the keys in the mappings that are found
in them. -/
structure TextKeyed (s : Store) (entries : List (Value × Item)) : Prop where
  here : ∀ e ∈ entries, ∃ k, e.1 = .text k
  within : ∀ path i inner, s.look entries path = some i → s.entries? i = some inner →
    ∀ e ∈ inner, ∃ k, e.1 = .text k

theorem textKeyed_nil (s : Store) : s.TextKeyed [] := by
  refine ⟨nofun, fun path i inner hi => ?_⟩
  cases path <;> cases hi

theorem TextKeyed.inner {inner : List (Value × Item)} (h : s.TextKeyed entries) {key : String}
    (hunder : (Entries.find? (.text key) entries).bind s.entries? = some inner) :
    s.TextKeyed inner := by
  obtain ⟨i, hi, hinner⟩ := Option.bind_eq_some_iff.mp hunder
  refine ⟨h.within [key] i inner (by rw [look_cons_some hi]; rfl) hinner, ?_⟩
  intro path j deeper hj hdeeper
  cases path with
  | nil => cases hj
  | cons k rest =>
    refine h.within (key :: k :: rest) j deeper ?_ hdeeper
    rw [look_cons_entries hi hinner (List.cons_ne_nil k rest), hj]

theorem TextKeyed.mono (h : s.TextKeyed entries) (hgrows : s.GrowsTo t) (hs : s.Sound)
    (hentries : s.Fits (.mapping entries)) : t.TextKeyed entries := by
  refine ⟨h.here, fun path i inner hi hinner => ?_⟩
  rw [hgrows.look_eq hs hentries] at hi
  rw [hgrows.entries?_eq (hentries.holds_of_look hs hi)] at hinner
  exact h.within path i inner hi hinner

/-! ### Trees -/

/-- A scalar, or a section that has texts for keys and such items in it. -/
inductive TextItem (s : Store) : Item → Prop
  | scalar (x : Scalar) : TextItem s (.scalar x)
  | mapping {i : Item} {entries : List (Value × Item)} : s.entries? i = some entries →
      (∀ e ∈ entries, ∃ k, e.1 = .text k) → (∀ e ∈ entries, TextItem s e.2) → TextItem s i

theorem TextItem.parts (h : s.TextItem i) (hi : s.entries? i = some entries) :
    (∀ e ∈ entries, ∃ k, e.1 = .text k) ∧ ∀ e ∈ entries, s.TextItem e.2 := by
  cases h with
  | scalar x => cases hi
  | mapping hentries htexts hitems =>
    cases hentries.symm.trans hi
    exact ⟨htexts, hitems⟩

theorem TextItem.find? (h : s.TextItem i) {path : List String} {j : Item}
    (hj : s.find? i path = some j) : s.TextItem j := by
  induction path generalizing i with
  | nil =>
    cases hj
    exact h
  | cons key rest ih =>
    rw [find?_cons] at hj
    obtain ⟨next, hnext, hj⟩ := Option.bind_eq_some_iff.mp hj
    obtain ⟨entries, hentries, hfind⟩ := Option.bind_eq_some_iff.mp hnext
    obtain ⟨k, hk, -⟩ := Entries.mem_of_find? hfind
    exact ih ((h.parts hentries).2 _ hk) hj

theorem TextItem.textKeyed (h : s.TextItem i) (hi : s.entries? i = some entries) :
    s.TextKeyed entries := by
  refine ⟨(h.parts hi).1, fun path j inner hj hinner => ?_⟩
  have hpath : path ≠ [] := by
    rintro rfl
    cases hj
  have hfind : s.find? i path = some j := by rw [find?_eq_look hpath, hi, Option.bind_some, hj]
  exact ((h.find? hfind).parts hinner).1

end Store

end Winnow
