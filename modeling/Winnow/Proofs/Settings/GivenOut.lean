/-
Winnow/Proofs/Settings/GivenOut.lean

What is given out with the merged settings.

Merging makes a new mapping, but not all that is in it is new.  A layer shows under a path
when it has a section there and no layer above has anything else on the way
(`Layers.Shows`).  Where two layers show, their sections are joined in a new one; where
one layer shows alone, what is given out is its own section (`Layers.Origin`,
`Layers.origin_merged`).  This is kept by laying one more layer over those before it
(`Layers.Origin.lay`): a silent layer changes nothing, and any other joins what is there,
replaces it, or cuts it off.

So objects that are new can be changed as one likes, and nothing that is read changes
(`Registry.readsLike_of_changesFrom`).  A section of a single layer is another matter:
whoever assigns into it changes the settings (`Registry.not_readsLike_of_own`).
-/
import Winnow.Proofs.Settings.Histories
import Winnow.Proofs.Settings.Sections
import Winnow.Proofs.Store.Joined

namespace Winnow

/-! ### Changes of new objects -/

namespace Store

variable {s t : Store} {i value : Item} {first : Nat}

/-- Objects are made, and objects from an address on are changed, one after another. -/
inductive ChangesFrom (first : Nat) (s : Store) : Store → Prop
  | refl : ChangesFrom first s s
  | make {t : Store} (c : Cell) : ChangesFrom first s t → ChangesFrom first s (t.add c).2
  | change {t u : Store} {a : Nat} {key : Value} {value : Item} : ChangesFrom first s t →
      first ≤ a → t.setElement (.object a) key value = .ok u → ChangesFrom first s u

/-- Changing a part of an object changes its cell, which then has the new item and some of those
that it had. -/
theorem exists_put_of_setElement {key : Value} (h : s.setElement i key value = .ok t) :
    ∃ a c d, i = .object a ∧ s.cell? a = some d ∧ t = s.put a c ∧
      ∀ j ∈ c.items, j = value ∨ j ∈ d.items := by
  cases i with
  | scalar x => cases h
  | object a =>
    unfold setElement at h
    split at h
    · rename_i b entries hb hcell
      cases hb
      split at h
      · cases h
      · cases h
        refine ⟨a, _, _, rfl, hcell, rfl, fun j hj => ?_⟩
        obtain ⟨e, he, rfl⟩ := List.mem_map.mp hj
        exact (Entries.mem_insert he).imp_right fun he => List.mem_map_of_mem he
    · rename_i b items hb hcell
      cases hb
      obtain ⟨n, -, h⟩ := except_bind_eq_ok_iff.mp h
      cases h
      refine ⟨a, _, _, rfl, hcell, rfl, fun j hj => ?_⟩
      exact (List.mem_or_eq_of_mem_set (l := items) hj).symm
    · cases h

/-- Old objects are as they were. -/
theorem ChangesFrom.keeps (h : ChangesFrom first s t) (hfirst : first ≤ s.size) :
    s.size ≤ t.size ∧ ∀ a < first, t.cell? a = s.cell? a := by
  induction h with
  | refl => exact ⟨Nat.le_refl _, fun _ _ => rfl⟩
  | @make t c _ ih =>
    have hgrows := growsTo_add t c
    refine ⟨Nat.le_trans ih.1 hgrows.size_le, fun a ha => ?_⟩
    rw [hgrows.cell?_eq (Nat.lt_of_lt_of_le ha (Nat.le_trans hfirst ih.1)), ih.2 a ha]
  | @change t u a key value _ hnew hset ih =>
    obtain ⟨_, c, -, ⟨⟩, -, rfl, -⟩ := exists_put_of_setElement hset
    refine ⟨Nat.le_trans ih.1 (Nat.le_of_eq size_put.symm), fun b hb => ?_⟩
    rw [cell?_put_of_ne (by omega), ih.2 b hb]

end Store

namespace Registry

variable {r : Registry} {s t : Store} {P : Pairing}

/-- **What is read depends on the objects of the layers only**: where these are the same in two
stores, the settings read alike. -/
theorem readsLike_of_keeps [Stack] (hr : r.Sound) (h : Store.Twins P r.store r.store)
    (hl : ∀ m, Layers.Paired P (r.layers m) (r.layers m)) (hs : r.store.size ≤ s.size)
    (ht : r.store.size ≤ t.size)
    (hkeeps : ∀ a b, P a b → a < r.store.size → s.cell? a = r.store.cell? a)
    (hkeeps' : ∀ a b, P a b → b < r.store.size → t.cell? b = r.store.cell? b) (m : Nat) :
    ReadsLike { r with store := s } m { r with store := t } m :=
  readsLike_of_paired (h.realign hr.store hs ht hkeeps hkeeps') fun source =>
    layer_realigned hr (hl m source) _ _

end Registry

/-! ### Sections and the layers that they come from -/

namespace Layers

open Store (Laid)

variable {l : Layers} {s t u : Store} {path : List String} {x y source : Source}
  {row sources : List Source} {entries merged : List (Value × Item)} {v : Item}

/-- A layer lets through what the layers below have under a path: it has a section there, or
nothing, and only sections on the way. -/
def OpenAt (l : Layers) (s : Store) (path : List String) (source : Source) : Prop :=
  l.SilentAt s path source ∨ l.MappingAt s path source

/-- Among the layers of a row of sources, one shows under a path: it has a section there, and
those above let it through. -/
def ShowsIn (l : Layers) (s : Store) (path : List String) (row : List Source) (x : Source) :
    Prop :=
  ∃ before after, row = before ++ x :: after ∧ l.MappingAt s path x ∧
    ∀ y ∈ after, l.OpenAt s path y

/-- A layer shows under a path. -/
def Shows (l : Layers) (s : Store) (path : List String) (x : Source) : Prop :=
  l.MappingAt s path x ∧ ∀ higher, x.rank < higher.rank → l.OpenAt s path higher

theorem showsIn_all_iff : l.ShowsIn s path Source.all x ↔ l.Shows s path x := by
  constructor
  · rintro ⟨before, after, hall, hmapping, hopen⟩
    exact ⟨hmapping, fun higher hrank => hopen higher ((mem_after_iff hall).mpr hrank)⟩
  · rintro ⟨hmapping, hopen⟩
    have hmem : x ∈ Source.all := by cases x <;> decide
    obtain ⟨before, after, hall⟩ := List.append_of_mem hmem
    exact ⟨before, after, hall, hmapping, fun y hy => hopen y ((mem_after_iff hall).mp hy)⟩

theorem ShowsIn.mem (h : l.ShowsIn s path row x) : x ∈ row := by
  obtain ⟨before, after, rfl, -⟩ := h
  exact List.mem_append_right _ List.mem_cons_self

/-- With one more layer on top, those show that did and are let through, and the new one if it has
a section. -/
theorem showsIn_append_iff : l.ShowsIn s path (row ++ [y]) x ↔
    (l.ShowsIn s path row x ∧ l.OpenAt s path y) ∨ (x = y ∧ l.MappingAt s path y) := by
  constructor
  · rintro ⟨before, after, hrow, hmapping, hopen⟩
    rcases List.eq_nil_or_concat' after with rfl | ⟨after, last, rfl⟩
    · obtain ⟨-, hlast⟩ := List.append_inj' hrow rfl
      cases hlast
      exact .inr ⟨rfl, hmapping⟩
    · rw [← List.cons_append, ← List.append_assoc] at hrow
      obtain ⟨hrest, hlast⟩ := List.append_inj' hrow rfl
      cases hlast
      rw [List.forall_mem_append] at hopen
      exact .inl ⟨⟨before, after, hrest, hmapping, hopen.1⟩, hopen.2 _ List.mem_cons_self⟩
  · rintro (⟨⟨before, after, rfl, hmapping, hopen⟩, hy⟩ | ⟨rfl, hmapping⟩)
    · refine ⟨before, after ++ [y], by simp, hmapping, ?_⟩
      exact List.forall_mem_append.mpr ⟨hopen, List.forall_mem_singleton.mpr hy⟩
    · exact ⟨row, [], rfl, hmapping, nofun⟩

/-- Where what is found under a path comes from, when the layers of a row of sources have been
merged: no layer shows and it is no section, one layer shows and it is its own, or two show and it
is new. -/
inductive Origin (l : Layers) (s : Store) (path : List String) (row : List Source) (t : Store) :
    Option Item → Prop
  | nothing {found : Option Item} : found.bind t.entries? = Option.none →
      (∀ x, ¬ l.ShowsIn s path row x) → Origin l s path row t found
  | own {x : Source} {v : Item} : l.itemAt? s path x = some v → l.ShowsIn s path row x →
      (∀ y, l.ShowsIn s path row y → y = x) → Origin l s path row t (some v)
  | joined {x y : Source} {a : Nat} : s.size ≤ a → (t.entries? (.object a)).isSome = true →
      x ≠ y → l.ShowsIn s path row x → l.ShowsIn s path row y →
      Origin l s path row t (some (.object a))

/-- The same layers show, and what is found is a section in one store if it is in the other. -/
theorem Origin.congr {row' : List Source} {found : Option Item} (h : l.Origin s path row t found)
    (hshows : ∀ x, l.ShowsIn s path row' x ↔ l.ShowsIn s path row x)
    (hentries : found.bind u.entries? = found.bind t.entries?) : l.Origin s path row' u found := by
  cases h with
  | nothing hfound hnobody =>
    exact .nothing (hentries.trans hfound) fun x => mt (hshows x).mp (hnobody x)
  | own hitem hx honly =>
    exact .own hitem ((hshows _).mpr hx) fun y hy => honly y ((hshows y).mp hy)
  | joined hnew hmapping hne hx hy =>
    exact .joined hnew ((congrArg Option.isSome hentries).trans hmapping) hne ((hshows _).mpr hx)
      ((hshows _).mpr hy)

/-- A silent layer changes nothing. -/
theorem Origin.silent {found : Option Item} (h : l.Origin s path row t found)
    (hsilent : l.SilentAt s path y) (hnone : ¬ l.MappingAt s path y)
    (hentries : found.bind u.entries? = found.bind t.entries?) :
    l.Origin s path (row ++ [y]) u found := by
  refine h.congr (fun x => ?_) hentries
  rw [showsIn_append_iff]
  exact ⟨fun h => h.elim And.left fun h => absurd h.2 hnone, fun h => .inl ⟨h, .inl hsilent⟩⟩

theorem mappingAt_iff_of_growsTo (hgrows : s.GrowsTo t) (hs : s.Sound) (hl : l.Held s)
    (hv : l.itemAt? s path x = some v) : l.MappingAt s path x ↔ (t.entries? v).isSome = true := by
  obtain ⟨layer, hlayer, hfind⟩ := Option.bind_eq_some_iff.mp hv
  rw [hgrows.entries?_eq (hs.holds_of_find? (hl x layer hlayer) hfind), Option.isSome_iff_exists]
  constructor
  · rintro ⟨w, inner, hw, hinner⟩
    cases hv.symm.trans hw
    exact ⟨inner, hinner⟩
  · rintro ⟨inner, hinner⟩
    exact ⟨v, inner, hv, hinner⟩

/-- What is found is a section exactly when some layer shows. -/
theorem Origin.exists_showsIn_iff {found : Option Item} (h : l.Origin s path row t found)
    (hgrows : s.GrowsTo t) (hs : s.Sound) (hl : l.Held s) :
    (∃ x, l.ShowsIn s path row x) ↔ (found.bind t.entries?).isSome = true := by
  cases h with
  | nothing hfound hnobody =>
    rw [hfound]
    exact iff_of_false (fun ⟨x, hx⟩ => hnobody x hx) Bool.false_ne_true
  | own hitem hx _ =>
    have hmapping : l.MappingAt s path _ := hx.choose_spec.choose_spec.2.1
    exact iff_of_true ⟨_, hx⟩ ((mappingAt_iff_of_growsTo hgrows hs hl hitem).mp hmapping)
  | joined _ hmapping _ hx _ => exact iff_of_true ⟨_, hx⟩ hmapping

/-- A layer that is not open cuts everything off. -/
theorem Origin.cut {found : Option Item} (hclosed : ¬ l.OpenAt s path y)
    (hfound : found.bind u.entries? = Option.none) : l.Origin s path (row ++ [y]) u found := by
  refine .nothing hfound fun x hx => ?_
  rcases showsIn_append_iff.mp hx with ⟨-, hopen⟩ | ⟨-, hmapping⟩
  · exact hclosed hopen
  · exact hclosed (.inr hmapping)

/-- **One more layer** is laid over those before it. -/
theorem Origin.lay (h : l.Origin s path row t (t.look entries path)) (hgrows : s.GrowsTo t)
    (hs : s.Sound) (hl : l.Held s) (ht : t.Sound) (hentries : t.Fits (.mapping entries))
    (hpath : path ≠ []) (hy : y ∉ row) {layer : Item} {upper : List (Value × Item)}
    (hlayer : l y = some layer) (hupper : t.entries? layer = some upper)
    (hlaid : Laid t entries upper u merged) :
    l.Origin s path (row ++ [y]) u (u.look merged path) := by
  have hupperFits := ht.fits_entries hupper
  have hgrows' := (hlaid.sound ht hentries hupperFits).1
  have hitem : l.itemAt? s path y = t.look upper path := by
    rw [← itemAt?_of_growsTo hgrows hs hl, itemAt?_eq_look hpath hlayer hupper]
  have hsilentIff : l.SilentAt s path y ↔ t.Silent upper path := by
    rw [← silentAt_of_growsTo hgrows hs hl, silentAt_iff hpath hlayer hupper]
  have hloud {v : Item} (hv : t.look upper path = some v) : ¬ l.SilentAt s path y := by
    intro hsilent
    rw [Store.look_eq_none_of_silent (hsilentIff.mp hsilent)] at hv
    cases hv
  have hmappingIff {v : Item} (hv : t.look upper path = some v) :
      l.MappingAt s path y ↔ (t.entries? v).isSome = true :=
    mappingAt_iff_of_growsTo hgrows hs hl (hitem.trans hv)
  have hnoMapping (hnone : t.look upper path = Option.none) : ¬ l.MappingAt s path y := by
    rintro ⟨v, -, hv, -⟩
    rw [hitem, hnone] at hv
    cases hv
  cases hlaid.path ht hentries hupperFits hpath with
  | silent hsilent hkept =>
    rw [hkept]
    refine h.silent (hsilentIff.mpr hsilent)
      (hnoMapping (Store.look_eq_none_of_silent hsilent)) ?_
    cases hv : t.look entries path with
    | none => rfl
    | some v => exact hgrows'.entries?_eq (hentries.holds_of_look ht hv)
  | @replaced v hv hcond hthere =>
    rw [hthere]
    have hsame := hgrows'.entries?_eq (hupperFits.holds_of_look ht hv)
    cases hinner : t.entries? v with
    | none =>
      refine .cut (fun hopen => hopen.elim (hloud hv) fun hmapping => ?_) (hsame.trans hinner)
      have hsome := (hmappingIff hv).mp hmapping
      rw [hinner] at hsome
      cases hsome
    | some inner =>
      -- nothing was to be seen before, so the layer shows alone
      rw [hinner] at hcond
      have hnobody : ¬ ∃ x, l.ShowsIn s path row x := by
        rw [h.exists_showsIn_iff hgrows hs hl, hcond.resolve_right (Option.some_ne_none inner)]
        exact Bool.false_ne_true
      have hmapping : l.MappingAt s path y := (hmappingIff hv).mpr (by rw [hinner]; rfl)
      refine .own (hitem.trans hv) (showsIn_append_iff.mpr (.inr ⟨rfl, hmapping⟩)) fun z hz => ?_
      rcases showsIn_append_iff.mp hz with ⟨hz, -⟩ | ⟨hz, -⟩
      · exact absurd ⟨z, hz⟩ hnobody
      · exact hz
  | @nested v fresh under above inner _ _ hv hunder habove _ _ _ _ hthere hfresh =>
    obtain ⟨a, hnew, ha⟩ := hlaid.exists_joined ht hentries hupperFits hpath hunder hv habove
    cases hthere.symm.trans ha
    rw [ha]
    obtain ⟨x, hx⟩ := (h.exists_showsIn_iff hgrows hs hl).mpr (by rw [hunder]; rfl)
    have hmapping : l.MappingAt s path y := (hmappingIff hv).mpr (by rw [habove]; rfl)
    refine .joined (Nat.le_trans hgrows.size_le hnew) (by rw [hfresh]; rfl) ?_
      (showsIn_append_iff.mpr (.inl ⟨hx, .inr hmapping⟩))
      (showsIn_append_iff.mpr (.inr ⟨rfl, hmapping⟩))
    rintro rfl
    exact hy hx.mem
  | blocked hsilent hnone hthere =>
    rw [hthere]
    exact .cut (fun hopen => hopen.elim (mt hsilentIff.mp hsilent) (hnoMapping hnone)) rfl

/-- Layers are laid over one another, by induction on the sources that are left. -/
theorem Origin.mergeOver [Stack] (h : l.Origin s path row t (t.look entries path))
    (hgrows : s.GrowsTo t)
    (hs : s.Sound) (hl : l.Held s) (ht : t.Sound) (hentries : t.Fits (.mapping entries))
    (hpath : path ≠ []) (hnodup : (row ++ sources).Nodup)
    (hmerge : l.mergeOver sources entries t = (.ok merged, u)) :
    l.Origin s path (row ++ sources) u (u.look merged path) := by
  induction sources generalizing row entries t with
  | nil =>
    cases hmerge
    rwa [List.append_nil]
  | cons y rest ih =>
    have hsplit : row ++ y :: rest = row ++ [y] ++ rest := by
      rw [List.append_assoc, List.singleton_append]
    have hy : y ∉ row := fun hmem =>
      (List.nodup_append.mp hnodup).2.2 y hmem y List.mem_cons_self rfl
    rw [hsplit] at hnodup ⊢
    rcases mergeOver_cons hmerge with
      ⟨hnone, hmerge⟩ | ⟨layer, upper, next, v, hlayer, hupper, hlaid, hmerge⟩
    · have hsilent : l.SilentAt s path y := fun layer hlayer => by
        rw [hnone] at hlayer
        cases hlayer
      refine ih (h.silent hsilent ?_ rfl) hgrows ht hentries hnodup hmerge
      rintro ⟨v, -, hv, -⟩
      rw [itemAt?, hnone] at hv
      cases hv
    · obtain ⟨hgrows', hv, hnext⟩ := hlaid.sound ht hentries (ht.fits_entries hupper)
      exact ih (h.lay hgrows hs hl ht hentries hpath hy hlayer hupper hlaid)
        (hgrows.trans hgrows') hv hnext hnodup hmerge

/-- **Where a section of the merged layers comes from.** -/
theorem origin_merged [Stack] {all : Item} (hs : s.Sound) (hl : l.Held s)
    (h : l.merged s = (.ok all, t))
    (hpath : path ≠ []) : l.Origin s path Source.all t (t.find? all path) := by
  obtain ⟨entries, u, hmerge, hu, hfits, hgrows, hentries⟩ := exists_mergeOver_of_merged hs h
  have hstart : l.Origin s path [] s (s.look [] path) := by
    have hnothing : s.look [] path = Option.none := by cases path <;> rfl
    rw [hnothing]
    refine .nothing rfl fun x hx => ?_
    cases hx.mem
  have horigin :=
    hstart.mergeOver (.refl s) hs hl hs Store.fits_mapping_nil hpath (by decide) hmerge
  rw [Store.find?_eq_look hpath, hentries, Option.bind_some, hgrows.look_eq hu hfits]
  refine horigin.congr (fun x => Iff.rfl) ?_
  cases hv : u.look entries path with
  | none => rfl
  | some v => exact hgrows.entries?_eq (hfits.holds_of_look hu hv)

end Layers

namespace Layers

/-- A layer shows under a path, and no other does. -/
def ShowsAlone (l : Layers) (s : Store) (path : List String) (x : Source) : Prop :=
  l.Shows s path x ∧ ∀ y, l.Shows s path y → y = x

end Layers

namespace Registry

variable {r q : Registry} {n : Nat} {all : Item} {path : List String} {t : Store}

/-- All merged settings are a new mapping. -/
theorem isNew_of_merged [Stack] (hr : r.Sound) (h : r.merged n = (.ok all, q)) :
    ¬ r.store.Holds all := by
  obtain ⟨t, hmerged, rfl⟩ := merged_eq_ok_iff.mp h
  unfold Layers.merged at hmerged
  split at hmerged
  · rename_i entries u hmerge
    obtain ⟨hgrows, -⟩ := Layers.mergeOver_sound hmerge hr.store Store.fits_mapping_nil
    cases hmerged
    exact Nat.not_lt.mpr hgrows.size_le
  · cases hmerged

/-- Changing new objects changes nothing that is read. -/
theorem readsLike_of_changesFrom [Stack] (hr : r.Sound) (h : r.merged n = (.ok all, q))
    (hchanges : q.store.ChangesFrom r.store.size t) (m : Nat) :
    ReadsLike { q with store := t } m q m := by
  obtain ⟨s, hmerged, rfl⟩ := merged_eq_ok_iff.mp h
  have hgrows := (Layers.merged_sound hr.store hmerged).1
  obtain ⟨hsize, hkeeps⟩ := hchanges.keeps hgrows.size_le
  refine readsLike_of_keeps hr (Store.twins_refl r.store) (fun m source => rel_self _)
    (Nat.le_trans hgrows.size_le hsize) hgrows.size_le (fun a _ _ ha => ?_)
    (fun _ b _ hb => hgrows.cell?_eq hb) m
  exact (hkeeps a ha).trans (hgrows.cell?_eq ha)

/-- **What is given out with the merged settings.**  A section of the merged settings is new where
they begin and where two layers show; where one layer shows alone, it is the section of this
layer.  Whatever is done to new objects, all that can be read of any settings stays the same. -/
theorem givenOut_merged [Stack] (hr : r.Reachable) (h : r.merged n = (.ok all, q)) :
    (∀ path v, q.store.find? all path = some v → (q.store.entries? v).isSome = true →
      (¬ r.store.Holds v ∧ (path = [] ∨ ∃ x y, x ≠ y ∧ (r.layers n).Shows r.store path x ∧
        (r.layers n).Shows r.store path y)) ∨
      ∃ x, (r.layers n).ShowsAlone r.store path x ∧
        (r.layers n).itemAt? r.store path x = some v) ∧
    ∀ t, q.store.ChangesFrom r.store.size t → ∀ m, ReadsLike { q with store := t } m q m := by
  refine ⟨fun path v hv hmapping => ?_, fun t ht => readsLike_of_changesFrom hr.sound h ht⟩
  by_cases hpath : path = []
  · subst hpath
    cases hv
    exact .inl ⟨isNew_of_merged hr.sound h, .inl rfl⟩
  obtain ⟨t, hmerged, rfl⟩ := merged_eq_ok_iff.mp h
  have horigin := Layers.origin_merged hr.sound.store (hr.sound.layers n) hmerged hpath
  rw [hv] at horigin
  cases horigin with
  | nothing hnone _ =>
    rw [Option.bind_some] at hnone
    rw [hnone] at hmapping
    cases hmapping
  | own hitem hx honly =>
    exact .inr ⟨_, ⟨Layers.showsIn_all_iff.mp hx, fun y hy =>
      honly y (Layers.showsIn_all_iff.mpr hy)⟩, hitem⟩
  | joined hnew _ hne hx hy =>
    exact .inl ⟨Nat.not_lt.mpr hnew, .inr ⟨_, _, hne, Layers.showsIn_all_iff.mp hx,
      Layers.showsIn_all_iff.mp hy⟩⟩

open scoped Stack in
/-- New settings merged: what is given out, and the registry then. -/
def givenOut : Item × Registry :=
  match atStart.merged 0 with
  | (.ok all, q) => (all, q)
  | (.error _, q) => (.null, q)

open scoped Stack in
theorem merged_atStart : atStart.merged 0 = (.ok givenOut.1, givenOut.2) := rfl

open scoped Stack in
theorem reachable_atStart : atStart.Reachable := .add _ _ _ .empty

open scoped Stack in
/-- The section of the log is that of the defaults. -/
theorem givenOut_merged_atStart :
    atStart.merged 0 = (.ok givenOut.1, givenOut.2) ∧
      (∃ v, givenOut.2.store.find? givenOut.1 ["resfilter", "logging"] = some v ∧
        ∃ x, (atStart.layers 0).ShowsAlone atStart.store ["resfilter", "logging"] x ∧
          (atStart.layers 0).itemAt? atStart.store ["resfilter", "logging"] x = some v) ∧
      ReadsLike { givenOut.2 with store := (givenOut.2.store.add (.mapping [])).2 } 0
        givenOut.2 0 := by
  obtain ⟨hsections, hchanges⟩ := givenOut_merged reachable_atStart merged_atStart
  refine ⟨merged_atStart, ⟨.object 0, rfl, ?_⟩, hchanges _ (.make _ .refl) 0⟩
  refine (hsections ["resfilter", "logging"] (.object 0) rfl rfl).resolve_left fun hnew => ?_
  exact hnew.1 (show 0 < atStart.store.size by decide)

/-- The merged settings after the level of the log has been changed in them. -/
def levelChanged : Store :=
  match givenOut.2.store.setAt givenOut.1 (.scalar (.text "DEBUG"))
    [.text "resfilter", .text "logging", .text "level"] with
  | .ok t => t
  | .error _ => givenOut.2.store

open scoped Stack in
/-- **Not all that is given out is new**: whoever changes the section of a single layer changes the
settings. -/
theorem not_readsLike_of_own : ¬ ∀ (r q : Registry) (n : Nat) (all value : Item)
    (keys : List Value) (t : Store), r.Reachable → r.merged n = (.ok all, q) →
    q.store.Holds value → q.store.setAt all value keys = .ok t →
    ReadsLike { q with store := t } n q n := by
  intro hall
  have hset : givenOut.2.store.setAt givenOut.1 (.scalar (.text "DEBUG"))
      [.text "resfilter", .text "logging", .text "level"] = .ok levelChanged := rfl
  have halike := hall _ _ 0 _ (.scalar (.text "DEBUG")) _ _ reachable_atStart merged_atStart
    trivial hset
  have hlevel := halike.get Setting.logLevel .null 0
  have hchanged : (({ givenOut.2 with store := levelChanged } : Registry).getStored 0
      Setting.logLevel .null).item = .scalar (.text "DEBUG") := rfl
  have hkept : (givenOut.2.getStored 0 Setting.logLevel .null).item = .scalar (.text "INFO") := rfl
  rw [hchanged, hkept, Store.viewTo, Store.viewTo] at hlevel
  injection hlevel with hlevel
  injection hlevel with hlevel
  exact absurd hlevel (by decide)

end Registry

end Winnow
