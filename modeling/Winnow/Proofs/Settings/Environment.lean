/-
Winnow/Proofs/Settings/Environment.lean

What comes of settings from the environment.

The settings of the variables are put into one new section, one after another.
Whatever they are, the section stays a tree beside everything else (`Stands`).  Where
none of their paths goes on behind another (`Orderless`), none is in the way of
another, and the section has all of them and nothing else (`Gives`,
`exists_assignAll`).  Two sections that give the same settings are the same but for
the order of keys (`Gives.rearranged`).

Otherwise some order fails, or it matters which setting comes last
(`find?_of_assignAll_last`, `not_assignAll_of_behind`).
-/
import Winnow.Proofs.Settings.LayersAlike
import Winnow.Proofs.Store.Trees
import Winnow.Settings.Environment

namespace Winnow

namespace Environment

open Store (IsTree Assigned Blocked)

variable {e e' : Environment} {u s t s' t' : Store} {root root' : Item} {path : List String}
  {x : Scalar} {a b : List String × Scalar} {settings done : List (List String × Scalar)}

/-! ### Settings and their paths -/

theorem path?_ne_nil {name : String} (h : path? name = some path) : path ≠ [] := by
  unfold path? at h
  dsimp only at h
  split at h
  · rw [← Option.some.inj h]
    exact fun hnil => Text.splitAt_ne_nil _ _ (List.map_eq_nil_iff.mp hnil)
  · cases h

theorem mem_settings_iff : a ∈ e.settings ↔
    ∃ v ∈ e, path? v.1 = some a.1 ∧ Setting.read v.2 = a.2 := by
  unfold settings
  rw [List.mem_filterMap]
  refine exists_congr fun v => and_congr_right fun _ => ?_
  rw [Option.map_eq_some_iff]
  constructor
  · rintro ⟨path, hpath, rfl⟩
    exact ⟨hpath, rfl⟩
  · rintro ⟨hpath, hvalue⟩
    exact ⟨a.1, hpath, by rw [hvalue]⟩

theorem ne_nil_of_mem_settings (h : a ∈ e.settings) : a.1 ≠ [] := by
  obtain ⟨v, -, hpath, -⟩ := mem_settings_iff.mp h
  exact path?_ne_nil hpath

/-- The text of a variable always stands for some value. -/
theorem isNull_read (text : String) : (Item.scalar (Setting.read text)).isNull = false := by
  unfold Setting.read Setting.readNumber
  dsimp only
  split
  · rfl
  · split
    · rfl
    · split
      · rfl
      · split
        · unfold Scalar.ofFloat
          split <;> rfl
        · rfl

/-- No path of the variables goes on behind the path of another, and no two of them
give different values under one path. -/
def Orderless (e : Environment) : Prop :=
  ∀ a ∈ e.settings, ∀ b ∈ e.settings, a.1 <+: b.1 → a = b

theorem settings_perm (h : e.Perm e') : e.settings.Perm e'.settings := h.filterMap _

theorem Orderless.perm (h : e.Orderless) (hperm : e.Perm e') : e'.Orderless := by
  intro a ha b hb
  rw [(settings_perm hperm).mem_iff.symm] at ha hb
  exact h a ha b hb

/-! ### A section of its own -/

/-- A section is a tree in a store that has grown, and all of it is new. -/
structure Stands (u s : Store) (root : Item) : Prop where
  tree : s.IsTree root
  isObject : ∃ a, root = .object a
  grows : u.GrowsTo s
  fresh : ∀ q a, s.find? root q = some (.object a) → u.size ≤ a

/-- What is found under a path in a new section is the section itself. -/
theorem find?_new {q : List String} {w : Item}
    (h : (s.add (.mapping [])).2.find? (s.add (.mapping [])).1 q = some w) :
    q = [] ∧ w = .object s.size := by
  cases q with
  | nil => exact ⟨rfl, (Option.some.inj h).symm⟩
  | cons key rest =>
    rw [Store.find?_cons, Store.entries?_add] at h
    cases h

theorem stands_new (hs : s.Sound) : Stands s (s.add (.mapping [])).2 (s.add (.mapping [])).1 := by
  refine ⟨⟨hs.add Store.fits_mapping_nil, Store.holds_add, fun p q a hp hq => ?_,
    fun q a hq => ?_⟩, ⟨s.size, rfl⟩, Store.growsTo_add s _, fun q a hq => ?_⟩
  · rw [(find?_new hp).1, (find?_new hq).1]
  · cases (find?_new hq).2
    exact ⟨[], Store.entries?_add, nofun⟩
  · cases (find?_new hq).2
    exact Nat.le_refl _

/-- Putting a setting into a section that stands leaves one that stands. -/
theorem Stands.assign (h : Stands u s root) (hpath : path ≠ [])
    (hassign : s.assign (.scalar x) root path = (.ok (), t)) : Stands u t root := by
  have hassigned := Store.assign_assigned h.tree.sound h.tree.holds h.tree.unshared hpath hassign
  refine ⟨h.tree.assign hpath hassign, h.isObject, fun a c hc => ?_, fun q a hq => ?_⟩
  · -- no old cell is on the way
    refine hassigned.frame a c (h.grows a c hc) fun q _ _ hq => ?_
    have hnew := h.fresh q a hq
    have hold := Store.lt_size_of_cell? hc
    omega
  · by_cases hbehind : path <+: q
    · obtain ⟨rest, rfl⟩ := hbehind
      rw [hassigned.there] at hq
      cases rest <;> cases hq
    by_cases hway : q <+: path
    · have hne : q ≠ path := by
        rintro rfl
        exact hbehind hway
      cases hbefore : s.find? root q with
      | none => exact h.grows.size_le.trans (hassigned.new q a hway hne hbefore hq)
      | some w =>
        cases (hassigned.kept q w hway hne hbefore).symm.trans hq
        exact h.fresh q a hbefore
    · rw [hassigned.others q hbehind hway] at hq
      exact h.fresh q a hq

/-- Putting settings one after another leaves a section that stands. -/
theorem Stands.assignAll (h : Stands u s root) (hpaths : ∀ d ∈ settings, d.1 ≠ [])
    (hall : assignAll root settings s = (.ok (), t)) : Stands u t root := by
  induction settings generalizing s with
  | nil =>
    cases hall
    exact h
  | cons d rest ih =>
    obtain ⟨path, x⟩ := d
    obtain ⟨hpath, hrest⟩ := List.forall_mem_cons.mp hpaths
    rw [Environment.assignAll] at hall
    split at hall
    · rename_i v hassign
      exact ih (h.assign hpath hassign) hrest hall
    · cases hall

/-! ### Settings that are not in one another's way -/

/-- A section has certain settings, and otherwise only the sections on the way to
them. -/
structure Gives (s : Store) (root : Item) (settings : List (List String × Scalar)) : Prop where
  leaf : ∀ d ∈ settings, s.find? root d.1 = some (.scalar d.2)
  only : ∀ q w, s.find? root q = some w → q = [] ∨ ∃ d ∈ settings, q <+: d.1

theorem gives_new (s : Store) : Gives (s.add (.mapping [])).2 (s.add (.mapping [])).1 [] :=
  ⟨nofun, fun _ _ h => .inl (find?_new h).1⟩

theorem Gives.mono (h : Gives s root settings) (hgrows : s.GrowsTo t) (hs : s.Sound)
    (hroot : s.Holds root) : Gives t root settings := by
  refine ⟨fun d hd => ?_, fun q w hw => ?_⟩
  · rw [hgrows.find?_eq hs hroot]
    exact h.leaf d hd
  · rw [hgrows.find?_eq hs hroot] at hw
    exact h.only q w hw

/-- What is found in the section is a scalar under the path of a setting, and a
section elsewhere. -/
theorem Gives.cases (h : Gives s root settings) (hroot : ∃ a, root = .object a) {q : List String}
    {w : Item} (hw : s.find? root q = some w) :
    (∃ d ∈ settings, q = d.1 ∧ w = .scalar d.2) ∨
      (∀ d ∈ settings, q ≠ d.1) ∧ ∃ a, w = .object a := by
  by_cases hleaf : ∃ d ∈ settings, q = d.1
  · obtain ⟨d, hd, rfl⟩ := hleaf
    cases (h.leaf d hd).symm.trans hw
    exact .inl ⟨d, hd, rfl, rfl⟩
  · refine .inr ⟨fun d hd hq => hleaf ⟨d, hd, hq⟩, ?_⟩
    rcases h.only q w hw with rfl | ⟨d, hd, rest, hrest⟩
    · cases hw
      exact hroot
    · have hthere := h.leaf d hd
      rw [← hrest] at hthere
      have hne : rest ≠ [] := by
        rintro rfl
        exact hleaf ⟨d, hd, by rw [← hrest, List.append_nil]⟩
      obtain ⟨a, -, hsection, -⟩ := Store.isSection_of_find?_append hthere hne
      cases hw.symm.trans hsection
      exact ⟨a, rfl⟩

/-- A setting is put into a section whose settings are not in its way. -/
theorem Gives.not_blocked (h : Gives s root settings) (htree : s.IsTree root)
    (hroot : ∃ a, root = .object a) (hpath : ∀ d ∈ settings, d.1 <+: path → d.1 = path) :
    ¬ s.Blocked root path := by
  rintro ⟨q, w, hq, hne, hw, hnone⟩
  rcases h.cases hroot hw with ⟨d, hd, rfl, -⟩ | ⟨-, a, rfl⟩
  · exact hne (hpath d hd hq)
  · obtain ⟨entries, hentries, -⟩ := htree.sections q a hw
    rw [hentries] at hnone
    cases hnone

/-- The section then has this setting too. -/
theorem Gives.assigned (h : Gives s root settings)
    (hassigned : s.Assigned root (.scalar x) path t)
    (hpath : ∀ d ∈ settings, d.1 <+: path ∨ path <+: d.1 → d = (path, x)) :
    Gives t root (settings ++ [(path, x)]) := by
  have hthere := hassigned.there []
  rw [List.append_nil] at hthere
  refine ⟨fun d hd => ?_, fun q w hw => ?_⟩
  · by_cases hway : d.1 <+: path ∨ path <+: d.1
    · have hd : d = (path, x) := by
        rcases List.mem_append.mp hd with hd | hd
        · exact hpath d hd hway
        · exact List.mem_singleton.mp hd
      rw [hd]
      exact hthere
    · have hold : d ∈ settings := by
        refine (List.mem_append.mp hd).resolve_right fun hlast => hway ?_
        rw [List.mem_singleton.mp hlast]
        exact .inl List.prefix_rfl
      rw [hassigned.others d.1 (fun hd => hway (.inr hd)) fun hd => hway (.inl hd)]
      exact h.leaf d hold
  · have hlast : (path, x) ∈ settings ++ [(path, x)] :=
      List.mem_append_right _ List.mem_cons_self
    by_cases hbehind : path <+: q
    · obtain ⟨rest, rfl⟩ := hbehind
      rw [hassigned.there] at hw
      cases rest with
      | nil => exact .inr ⟨_, hlast, by rw [List.append_nil]⟩
      | cons k rest => cases hw
    by_cases hway : q <+: path
    · exact .inr ⟨_, hlast, hway⟩
    · rw [hassigned.others q hbehind hway] at hw
      refine (h.only q w hw).imp_right ?_
      rintro ⟨d, hd, hq⟩
      exact ⟨d, List.mem_append_left _ hd, hq⟩

/-- Settings none of which is in the way of another can all be put into a section,
by induction on them: those that are there already are not in the way of the
next. -/
theorem exists_assignAll (hstands : Stands u s root) (hgives : Gives s root done)
    (hpaths : ∀ d ∈ settings, d.1 ≠ [])
    (horderless : ∀ a ∈ done ++ settings, ∀ b ∈ done ++ settings, a.1 <+: b.1 → a = b) :
    ∃ t, assignAll root settings s = (.ok (), t) ∧ Stands u t root ∧
      Gives t root (done ++ settings) := by
  induction settings generalizing done s with
  | nil => exact ⟨s, rfl, hstands, by rwa [List.append_nil]⟩
  | cons d rest ih =>
    obtain ⟨path, x⟩ := d
    obtain ⟨hpath, hrest⟩ := List.forall_mem_cons.mp hpaths
    have hnext : (path, x) ∈ done ++ (path, x) :: rest :=
      List.mem_append_right _ List.mem_cons_self
    have hdone (d : List String × Scalar) (hd : d ∈ done) : d ∈ done ++ (path, x) :: rest :=
      List.mem_append_left _ hd
    have hfree : ¬ s.Blocked root path := by
      refine hgives.not_blocked hstands.tree hstands.isObject fun d hd hway => ?_
      rw [horderless d (hdone d hd) _ hnext hway]
    cases hassign : s.assign (.scalar x) root path with
    | mk outcome t =>
      have hok : (s.assign (.scalar x) root path).1 = .ok () := Store.assign_isOk_iff.mpr hfree
      rw [hassign] at hok
      cases hok
      have htree := hstands.tree
      have hassigned :=
        Store.assign_assigned htree.sound htree.holds htree.unshared hpath hassign
      have hgives' := hgives.assigned hassigned fun d hd hway => by
        rcases hway with hway | hway
        · exact horderless d (hdone d hd) _ hnext hway
        · exact (horderless _ hnext d (hdone d hd) hway).symm
      have hsplit : done ++ [(path, x)] ++ rest = done ++ (path, x) :: rest := by
        rw [List.append_assoc, List.singleton_append]
      obtain ⟨v, hall, hstands', hgives''⟩ := ih (hstands.assign hpath hassign) hgives' hrest
        (by rwa [hsplit])
      rw [Environment.assignAll, hassign]
      exact ⟨v, hall, hstands', hsplit ▸ hgives''⟩

/-! ### Sections that give the same -/

section Same

variable {settings' : List (List String × Scalar)}

/-- Under one path, each entry of one section has one in the other. -/
theorem Gives.exists_entry (h : Gives s root settings) (htree : s.IsTree root)
    (h' : Gives s' root' settings') (hsame : ∀ d ∈ settings, d ∈ settings') {q : List String}
    {i j : Item} {entries entries' : List (Value × Item)} (hi : s.find? root q = some i)
    (hentries : s.entries? i = some entries) (hj : s'.find? root' q = some j)
    (hentries' : s'.entries? j = some entries') {f : Value × Item} (hf : f ∈ entries) :
    ∃ g ∈ entries', f.1 = g.1 ∧
      ∃ p, s.find? root p = some f.2 ∧ s'.find? root' p = some g.2 := by
  obtain ⟨key, v⟩ := f
  obtain ⟨a, rfl, -⟩ := Store.entries?_eq_some_iff.mp hentries
  obtain ⟨_, hsection, htexts⟩ := htree.sections q a hi
  cases hentries.symm.trans hsection
  obtain ⟨k, hk⟩ := htexts _ hf
  dsimp only at hk
  subst hk
  have hv : s.find? root (q ++ [k]) = some v := by
    rw [Store.find?_append_key hi hentries]
    exact ((htree.sound.fits_entries hentries).distinct _ rfl).find?_of_mem hf
  -- the entry is on the way to a setting, which the other section has too
  have hway : ∃ d ∈ settings, q ++ [k] <+: d.1 :=
    (h.only _ _ hv).resolve_left (List.append_ne_nil_of_right_ne_nil q (List.cons_ne_nil k []))
  obtain ⟨d, hd, rest, hrest⟩ := hway
  have hleaf := h'.leaf d (hsame d hd)
  rw [← hrest, Store.find?_append] at hleaf
  obtain ⟨w, hw, -⟩ := Option.bind_eq_some_iff.mp hleaf
  have hfind := hw
  rw [Store.find?_append_key hj hentries'] at hfind
  obtain ⟨key, hmem, hkey⟩ := Entries.mem_of_find? hfind
  exact ⟨_, hmem, (sameKey_text_iff.mp hkey).symm, q ++ [k], hv, hw⟩

/-- **Sections that give the same settings** are the same but for the order of
keys. -/
theorem Gives.rearranged (h : Gives s root settings) (hstands : Stands u s root)
    (h' : Gives s' root' settings') (hstands' : Stands u s' root')
    (hsame : ∀ d, d ∈ settings ↔ d ∈ settings') : s.Rearranged s' root root' := by
  refine ⟨fun i j => ∃ q, s.find? root q = some i ∧ s'.find? root' q = some j, ?_, [], rfl, rfl⟩
  rintro i j ⟨q, hi, hj⟩
  rcases h.cases hstands.isObject hi with ⟨d, hd, rfl, rfl⟩ | ⟨hnone, a, rfl⟩
  · cases (h'.leaf d ((hsame d).mp hd)).symm.trans hj
    exact .scalar d.2
  · have hsection' : ∃ b, j = .object b := by
      rcases h'.cases hstands'.isObject hj with ⟨d, hd, hq, -⟩ | ⟨-, hobject⟩
      · exact absurd hq (hnone d ((hsame d).mpr hd))
      · exact hobject
    obtain ⟨b, rfl⟩ := hsection'
    obtain ⟨entries, hentries, -⟩ := hstands.tree.sections q a hi
    obtain ⟨entries', hentries', -⟩ := hstands'.tree.sections q b hj
    obtain ⟨_, ha, hc⟩ := Store.entries?_eq_some_iff.mp hentries
    obtain ⟨_, hb, hd⟩ := Store.entries?_eq_some_iff.mp hentries'
    cases ha
    cases hb
    refine .object hc hd (.mapping (fun f hf => ?_) fun g hg => ?_)
    · exact h.exists_entry hstands.tree h' (fun d => (hsame d).mp) hi hentries hj hentries' hf
    · obtain ⟨f, hf, hkey, p, hg, hf'⟩ := h'.exists_entry hstands'.tree h (fun d => (hsame d).mpr)
        hj hentries' hi hentries hg
      exact ⟨f, hf, hkey.symm, p, hf', hg⟩

end Same

/-! ### Settings in one another's way -/

theorem assignAll_append {first second : List (List String × Scalar)}
    (h : assignAll root (first ++ second) s = (.ok (), t)) :
    ∃ v, assignAll root first s = (.ok (), v) ∧ assignAll root second v = (.ok (), t) := by
  induction first generalizing s with
  | nil => exact ⟨s, rfl, h⟩
  | cons d rest ih =>
    rw [List.cons_append, assignAll] at h
    rw [assignAll]
    split at h
    · exact ih h
    · cases h

theorem assignAll_singleton (h : assignAll root [b] s = (.ok (), t)) :
    s.assign (.scalar b.2) root b.1 = (.ok (), t) := by
  rw [assignAll] at h
  split at h
  · rename_i v hassign
    cases h
    exact hassign
  · cases h

/-- The last setting is there. -/
theorem find?_of_assignAll_last (h : Stands u s root) (hpaths : ∀ d ∈ settings ++ [b], d.1 ≠ [])
    (hall : assignAll root (settings ++ [b]) s = (.ok (), t)) :
    t.find? root b.1 = some (.scalar b.2) := by
  obtain ⟨hsettings, hlast⟩ := List.forall_mem_append.mp hpaths
  obtain ⟨v, hfirst, hrest⟩ := assignAll_append hall
  have hstands := h.assignAll hsettings hfirst
  have htree := hstands.tree
  have hassigned := Store.assign_assigned htree.sound htree.holds htree.unshared
    (hlast b List.mem_cons_self) (assignAll_singleton hrest)
  have hthere := hassigned.there []
  rwa [List.append_nil] at hthere

/-- A setting cannot be put behind the one before it. -/
theorem not_assignAll_of_behind (h : Stands u s root)
    (hpaths : ∀ d ∈ settings ++ [a], d.1 ≠ []) (hbehind : a.1 <+: b.1) (hne : a.1 ≠ b.1) :
    assignAll root (settings ++ [a] ++ [b]) s ≠ (.ok (), t) := by
  intro hall
  obtain ⟨v, hfirst, hlast⟩ := assignAll_append hall
  have hthere := find?_of_assignAll_last h hpaths hfirst
  have hok : (v.assign (.scalar b.2) root b.1).1 = .ok () := by rw [assignAll_singleton hlast]
  exact Store.assign_isOk_iff.mp hok ⟨a.1, _, hbehind, hne, hthere, rfl⟩

/-! ### The layer of the environment -/

theorem Stands.mono (h : Stands u s root) (hgrows : s.GrowsTo t) (ht : t.Sound) :
    Stands u t root := by
  obtain ⟨hs, hholds, hunshared, hsections⟩ := h.tree
  have hfind (q : List String) : t.find? root q = s.find? root q := hgrows.find?_eq hs hholds q
  refine ⟨⟨ht, hholds.mono hgrows.size_le, fun p q a hp hq => ?_, fun q a hq => ?_⟩, h.isObject,
    h.grows.trans hgrows, fun q a hq => ?_⟩
  · rw [hfind] at hp hq
    exact hunshared p q a hp hq
  · rw [hfind] at hq
    rw [hgrows.entries?_eq (hs.holds_of_find? hholds hq)]
    exact hsections q a hq
  · rw [hfind] at hq
    exact h.fresh q a hq

theorem Stands.textKeyed (h : Stands u s root) (key : String) :
    s.TextKeyed [(.text key, root)] := by
  refine ⟨List.forall_mem_singleton.mpr ⟨key, rfl⟩, fun path i inner hi hinner => ?_⟩
  cases path with
  | nil => cases hi
  | cons k rest =>
    rw [Store.look] at hi
    obtain ⟨j, hj, hi⟩ := Option.bind_eq_some_iff.mp hi
    obtain ⟨_, hmem, -⟩ := Entries.mem_of_find? hj
    cases List.mem_singleton.mp hmem
    obtain ⟨a, rfl, -⟩ := Store.entries?_eq_some_iff.mp hinner
    obtain ⟨entries, hentries, htexts⟩ := h.tree.sections rest a hi
    cases hinner.symm.trans hentries
    exact htexts

/-- The layer of the environment is a section with one section in it, which stands. -/
structure LayerIn (u t : Store) (layer root : Item) : Prop where
  stands : Stands u t root
  holds : t.Holds layer
  entries : t.entries? layer = some [(.text Setting.rootSection, root)]

theorem LayerIn.rearranged {layer layer' : Item} (h : LayerIn u t layer root)
    (h' : LayerIn u t' layer' root') (hroots : t.Rearranged t' root root') :
    t.Rearranged t' layer layer' := by
  have halike : t.AlikeEntries t' [(.text Setting.rootSection, root)]
      [(.text Setting.rootSection, root')] :=
    ⟨List.forall_mem_singleton.mpr ⟨_, List.mem_cons_self, rfl, hroots⟩,
      List.forall_mem_singleton.mpr ⟨_, List.mem_cons_self, rfl, hroots⟩⟩
  exact halike.rearranged h.entries h'.entries

theorem load_eq_of_nil (h : e.settings = []) (l : Layers) (s : Store) :
    e.load l s = (.ok l, s) := by
  unfold load
  rw [h]
  rfl

/-- The section that the settings of the environment are put into. -/
abbrev fill (e : Environment) (s : Store) : Except SectionFault Unit × Store :=
  assignAll (s.add (.mapping [])).1 e.settings (s.add (.mapping [])).2

theorem exists_fill_of_load {l l' : Layers} (hne : e.settings ≠ [])
    (h : e.load l s = (.ok l', t)) : ∃ v, e.fill s = (.ok (), v) := by
  unfold load at h
  dsimp only at h
  rw [if_neg fun hempty => hne (List.isEmpty_iff.mp hempty)] at h
  split at h
  · cases h
  · rename_i v hall
    exact ⟨v, hall⟩

/-- Reading the environment makes its layer of the section that has been filled. -/
theorem load_of_fill {v : Store} (hs : s.Sound) (hne : e.settings ≠ [])
    (hfill : e.fill s = (.ok (), v)) (l : Layers) : ∃ layer t,
      e.load l s = (.ok (l.update .environment (some layer)), t) ∧ v.GrowsTo t ∧
        LayerIn s t layer (s.add (.mapping [])).1 := by
  have hstands := (stands_new hs).assignAll (fun d hd => ne_nil_of_mem_settings hd) hfill
  have hfits : v.Fits (.mapping [(.text Setting.rootSection, (s.add (.mapping [])).1)]) :=
    Store.fits_mapping.mpr ⟨List.forall_mem_singleton.mpr hstands.tree.holds,
      List.pairwise_singleton _ _⟩
  have hgrows := Store.growsTo_add v
    (.mapping [(.text Setting.rootSection, (s.add (.mapping [])).1)])
  refine ⟨_, _, ?_, hgrows, hstands.mono hgrows (hstands.tree.sound.add hfits), Store.holds_add,
    Store.entries?_add⟩
  unfold load
  dsimp only
  rw [if_neg fun hempty => hne (List.isEmpty_iff.mp hempty), show assignAll _ _ _ = _ from hfill]

end Environment

end Winnow
