/-
Winnow/Proofs/Settings/Order.lean

The order of environment variables.

New settings are made of the defaults, of a file and of the environment
(`Layers.Plain`).  The first two do not depend on the order in which the variables
come, and the section that the variables give is the same but for the order of keys
if none of them is in the way of another (`exists_load`).  Then everything that is
read from the settings is the same (`SameSettings`).  Otherwise it is not, in some
order (`sameInAnyOrder_iff`).
-/
import Winnow.Proofs.Settings.Environment

namespace Winnow

/-! ### The defaults -/

namespace Store

/-- The defaults are two sections within one. -/
theorem exists_sections_of_defaults (s : Store) : ∃ root log filters,
    (s.place Setting.defaults).2.entries? (s.place Setting.defaults).1
      = some [(.text Setting.rootSection, root)] ∧
    (s.place Setting.defaults).2.entries? root
      = some [(.text Setting.logSection, log), (.text Setting.filterSection, filters)] ∧
    (s.place Setting.defaults).2.entries? log
      = some [(.text Setting.levelField, .scalar (.text "INFO")),
        (.text Setting.fileField, .null)] ∧
    (s.place Setting.defaults).2.entries? filters = some [] := by
  have hlog : (s.add (.mapping [(.text Setting.levelField, .scalar (.text "INFO")),
      (.text Setting.fileField, .null)])).2.entries? _ = some _ := entries?_add
  generalize hlogSection : s.add _ = log at hlog
  have hfilters : (log.2.add (.mapping [])).2.entries? _ = some _ := entries?_add
  generalize hfilterSection : log.2.add _ = filters at hfilters
  have hroot : (filters.2.add (.mapping [(.text Setting.logSection, log.1),
      (.text Setting.filterSection, filters.1)])).2.entries? _ = some _ := entries?_add
  generalize hrootSection : filters.2.add _ = root at hroot
  have hgrowsLog : log.2.GrowsTo filters.2 := hfilterSection ▸ growsTo_add _ _
  have hgrowsFilters : filters.2.GrowsTo root.2 := hrootSection ▸ growsTo_add _ _
  have hgrowsRoot := growsTo_add root.2 (.mapping [(.text Setting.rootSection, root.1)])
  have hall := (hgrowsLog.trans hgrowsFilters).trans hgrowsRoot
  refine ⟨root.1, log.1, filters.1, ?_⟩
  subst hlogSection hfilterSection hrootSection
  exact ⟨entries?_add, hgrowsRoot.entries?_of_eq_some hroot, hall.entries?_of_eq_some hlog,
    (hgrowsFilters.trans hgrowsRoot).entries?_of_eq_some hfilters⟩

/-- The keys of the defaults are texts. -/
theorem textItem_defaults (s : Store) :
    (s.place Setting.defaults).2.TextItem (s.place Setting.defaults).1 := by
  obtain ⟨root, log, filters, hall, hroot, hlog, hfilters⟩ := exists_sections_of_defaults s
  have hlogItem := TextItem.mapping hlog
    (List.forall_mem_cons.mpr ⟨⟨_, rfl⟩, List.forall_mem_singleton.mpr ⟨_, rfl⟩⟩)
    (List.forall_mem_cons.mpr ⟨.scalar _, List.forall_mem_singleton.mpr (.scalar _)⟩)
  have hfiltersItem := TextItem.mapping hfilters nofun nofun
  have hrootItem := TextItem.mapping hroot
    (List.forall_mem_cons.mpr ⟨⟨_, rfl⟩, List.forall_mem_singleton.mpr ⟨_, rfl⟩⟩)
    (List.forall_mem_cons.mpr ⟨hlogItem, List.forall_mem_singleton.mpr hfiltersItem⟩)
  exact .mapping hall (List.forall_mem_singleton.mpr ⟨_, rfl⟩)
    (List.forall_mem_singleton.mpr hrootItem)

end Store

/-! ### The layers of new settings -/

namespace Layers

variable {l l' : Layers} {s t u : Store}

/-- Layers as new settings have them: mappings, with texts for keys in all but those
of a file, and nothing set since. -/
structure Plain (l : Layers) (s : Store) : Prop where
  ready : l.Ready s
  texts : ∀ source, source ≠ .file → l.TextAt s source
  unset : l .runtime = Option.none

theorem plain_initial (hs : s.Sound) : (Layers.initial s).1.Plain (Layers.initial s).2 := by
  obtain ⟨hstep, hheld⟩ := Layers.initial_sound hs
  have hsection : ((Layers.initial s).2.entries? (s.place Setting.defaults).1).isSome = true :=
    congrArg Option.isSome Store.entries?_add
  refine ⟨⟨hstep.sound, hheld, fun source layer hlayer => ?_⟩,
    fun source _ layer upper hlayer hupper => ?_, rfl⟩
  · cases source <;> cases hlayer
    exact hsection
  · cases source <;> cases hlayer
    exact (Store.textItem_defaults s).textKeyed hupper

/-- What the environment gives is found where nothing has been set. -/
theorem find?_of_environment {path : List String} {v : Item} (hunset : l .runtime = Option.none)
    (hitem : l.itemAt? s path .environment = some v) (hv : v.isNull = false) :
    l.find? s path = some (.environment, v) := by
  refine find?_eq_some_iff.mpr ⟨at?_eq_some_iff.mpr ⟨hitem, hv⟩, fun higher hrank => ?_⟩
  have hhigher : higher = .runtime := by
    revert hrank
    cases higher <;> decide
  subst hhigher
  refine Option.eq_none_iff_forall_ne_some.mpr fun w hw => ?_
  obtain ⟨hitem, -⟩ := at?_eq_some_iff.mp hw
  rw [itemAt?, hunset] at hitem
  cases hitem

/-- Putting a mapping in the place of a layer. -/
theorem Plain.update (h : l.Plain s) (hgrows : s.GrowsTo t) (ht : t.Sound) {source : Source}
    {layer : Item} (hsource : source ≠ .runtime) (hheld : t.Holds layer)
    (hmapping : (t.entries? layer).isSome = true)
    (htexts : source ≠ .file → ∀ upper, t.entries? layer = some upper → t.TextKeyed upper) :
    (l.update source (some layer)).Plain t := by
  have hready := h.ready.mono hgrows ht
  refine ⟨⟨ht, hready.held.update_some hheld, fun other i hi => ?_⟩,
    fun other hother i upper hi hupper => ?_, ?_⟩
  · unfold Layers.update at hi
    split at hi
    · cases hi
      exact hmapping
    · exact hready.mappings other i hi
  · unfold Layers.update at hi
    split at hi
    · rename_i hsource
      cases hi
      exact htexts (hsource ▸ hother) upper hupper
    · exact (h.texts other hother).mono hgrows h.ready.sound h.ready.held i upper hi hupper
  · rw [Layers.update, if_neg hsource.symm, h.unset]

end Layers

/-- A settings file has a mapping outermost. -/
theorem isSome_of_readFile {f : Files} {path : String} {s t : Store} {i : Item}
    (h : Setting.readFile f path s = .ok (i, t)) : (t.entries? i).isSome = true := by
  obtain ⟨p, -, h⟩ := except_bind_eq_ok_iff.mp h
  dsimp only at h
  split at h
  · cases h
  · split at h
    · cases h
    · cases h
    · split at h
      · cases h
      · cases h
      · unfold Setting.readDocument at h
        split at h
        · cases h
        · cases h
        · split at h
          · cases h
            assumption
          · cases h

theorem Layers.Plain.loadFile {l l' : Layers} {s t : Store} {f : Files} {path : String}
    (h : l.Plain s) (hload : l.loadFile f path .file s = .ok (l', t)) : l'.Plain t := by
  obtain ⟨⟨i, u⟩, hread, hload⟩ := except_bind_eq_ok_iff.mp hload
  cases hload
  obtain ⟨hgrows, ht, hi⟩ := readFile_sound h.ready.sound hread
  exact h.update hgrows ht nofun hi (isSome_of_readFile hread) fun hne => absurd rfl hne

theorem Layers.Plain.withEnvironment {l : Layers} {s t : Store} {layer root : Item}
    (h : l.Plain s) (hlayer : Environment.LayerIn s t layer root) :
    (l.update .environment (some layer)).Plain t := by
  have hstands := hlayer.stands
  refine h.update hstands.grows hstands.tree.sound nofun hlayer.holds ?_ fun _ upper hupper => ?_
  · rw [hlayer.entries]
    rfl
  · cases hlayer.entries.symm.trans hupper
    exact hstands.textKeyed _

/-- The layers of new settings, before the environment is read. -/
theorem Registry.plain_newLayers {f : Files} {file : Option String} {s u : Store} {l : Layers}
    (hs : s.Sound) (h : newLayers f file none s = (.ok l, u)) : l.Plain u :=
  (newLayers_preserve (I := fun _ => True) h (fun _ _ _ => trivial) (Layers.plain_initial hs)
    (fun _ _ _ hloaded => (Layers.plain_initial hs).loadFile hloaded) nofun).2 l rfl

/-! ### Reading the environment in any order -/

namespace Environment

variable {e e' : Environment} {l : Layers} {u : Store}

/-- Variables that are not in one another's way give the same layers in any order. -/
theorem exists_load (h : e.Orderless) (hperm : e.Perm e') (hl : l.Plain u) :
    ∃ l₁ t₁ l₂ t₂, e.load l u = (.ok l₁, t₁) ∧ e'.load l u = (.ok l₂, t₂) ∧
      l₁.Plain t₁ ∧ l₂.Plain t₂ ∧ l₁.Alike t₁ l₂ t₂ := by
  have hsettings := settings_perm hperm
  have hold (source : Source) {t₁ t₂ : Store} (h₁ : u.GrowsTo t₁) (h₂ : u.GrowsTo t₂) :
      t₁.SameOption t₂ (l source) (l source) := by
    cases hlayer : l source with
    | none => exact .none
    | some layer => exact .some (.of_holds hl.ready.sound (hl.ready.held source layer hlayer) h₁ h₂)
  by_cases hempty : e.settings = []
  · -- no variable counts, so there is no layer of the environment
    have hempty' : e'.settings = [] := List.Perm.eq_nil (hempty ▸ hsettings).symm
    exact ⟨l, u, l, u, load_eq_of_nil hempty l u, load_eq_of_nil hempty' l u, hl, hl,
      fun source => hold source (.refl u) (.refl u)⟩
  · have hempty' : e'.settings ≠ [] := fun hnil => hempty (List.Perm.eq_nil (hnil ▸ hsettings))
    have hnew := stands_new hl.ready.sound
    -- both orders fill a section of their own, with the same settings
    obtain ⟨v₁, hfill₁, hstands₁, hgives₁⟩ := exists_assignAll hnew (gives_new u)
      (fun d hd => ne_nil_of_mem_settings hd) h
    obtain ⟨v₂, hfill₂, hstands₂, hgives₂⟩ := exists_assignAll hnew (gives_new u)
      (fun d hd => ne_nil_of_mem_settings hd) (h.perm hperm)
    obtain ⟨layer₁, t₁, hload₁, hgrows₁, hlayer₁⟩ := load_of_fill hl.ready.sound hempty hfill₁ l
    obtain ⟨layer₂, t₂, hload₂, hgrows₂, hlayer₂⟩ := load_of_fill hl.ready.sound hempty' hfill₂ l
    have hroots := (hgives₁.rearranged hstands₁ hgives₂ hstands₂ fun d => hsettings.mem_iff).mono
      hgrows₁ hgrows₂
    refine ⟨_, t₁, _, t₂, hload₁, hload₂, hl.withEnvironment hlayer₁, hl.withEnvironment hlayer₂,
      fun source => ?_⟩
    unfold Layers.update
    split
    · exact .some (hlayer₁.rearranged hlayer₂ hroots)
    · exact hold source hlayer₁.stands.grows hlayer₂.stands.grows

/-- The last variable gives the setting under its path. -/
theorem find?_of_load_last {settings : List (List String × Scalar)} {b : List String × Scalar}
    {l' : Layers} {t : Store} (hl : l.Plain u) (hsettings : e.settings = settings ++ [b])
    (h : e.load l u = (.ok l', t)) :
    l'.find? t (Setting.rootSection :: b.1) = some (.environment, .scalar b.2) := by
  have hne : e.settings ≠ [] := by
    rw [hsettings]
    exact List.append_ne_nil_of_right_ne_nil _ (List.cons_ne_nil b [])
  have hpaths : ∀ d ∈ e.settings, d.1 ≠ [] := fun d hd => ne_nil_of_mem_settings hd
  have hlast : b ∈ e.settings := hsettings ▸ List.mem_append_right _ List.mem_cons_self
  obtain ⟨v, hfill⟩ := exists_fill_of_load hne h
  obtain ⟨layer, t', hload, hgrows, hlayer⟩ := load_of_fill hl.ready.sound hne hfill l
  cases h.symm.trans hload
  have hthere : v.find? (u.add (.mapping [])).1 b.1 = some (.scalar b.2) := by
    unfold fill at hfill
    rw [hsettings] at hfill hpaths
    exact find?_of_assignAll_last (stands_new hl.ready.sound) hpaths hfill
  have hv := (stands_new hl.ready.sound).assignAll hpaths hfill
  have hfind : t.find? layer (Setting.rootSection :: b.1) = some (.scalar b.2) := by
    rw [Store.find?_cons, hlayer.entries, Option.bind_some,
      (Entries.find?_text_cons _ _ _).1 rfl, Option.bind_some,
      hgrows.find?_eq hv.tree.sound hv.tree.holds, hthere]
  obtain ⟨v, -, -, hvalue⟩ := mem_settings_iff.mp hlast
  refine Layers.find?_of_environment (hl.withEnvironment hlayer).unset ?_ (hvalue ▸ isNull_read _)
  rw [Layers.itemAt?, Layers.update, if_pos rfl, Option.bind_some, hfind]

/-- A variable cannot be read last when another is in its way. -/
theorem not_load_of_behind {settings : List (List String × Scalar)}
    {a b : List String × Scalar} {l' : Layers} {t : Store} (hl : l.Plain u)
    (hsettings : e.settings = settings ++ [a] ++ [b]) (hbehind : a.1 <+: b.1) (hne : a.1 ≠ b.1) :
    e.load l u ≠ (.ok l', t) := by
  intro h
  have hempty : e.settings ≠ [] := by
    rw [hsettings]
    exact List.append_ne_nil_of_right_ne_nil _ (List.cons_ne_nil b [])
  have hpaths : ∀ d ∈ e.settings, d.1 ≠ [] := fun d hd => ne_nil_of_mem_settings hd
  obtain ⟨v, hfill⟩ := exists_fill_of_load hempty h
  unfold fill at hfill
  rw [hsettings] at hfill hpaths
  exact not_assignAll_of_behind (stands_new hl.ready.sound) (List.forall_mem_append.mp hpaths).1
    hbehind hne hfill

/-- Two variables can be put last. -/
theorem exists_perm_last {v w : String × String} (hv : v ∈ e) (hw : w ∈ e) (hne : v ≠ w) :
    ∃ rest : Environment, e.Perm (rest ++ [v, w]) ∧ e.Perm (rest ++ [w, v]) := by
  have hfirst : e.Perm (v :: e.erase v) := List.perm_cons_erase hv
  have hmem : w ∈ e.erase v := (List.mem_erase_of_ne hne.symm).mpr hw
  have hsecond : (e.erase v).Perm (w :: (e.erase v).erase w) := List.perm_cons_erase hmem
  have hboth : e.Perm ([v, w] ++ (e.erase v).erase w) := hfirst.trans (hsecond.cons v)
  have hlast := hboth.trans List.perm_append_comm
  exact ⟨_, hlast, hlast.trans ((List.Perm.swap w v []).append_left _)⟩

theorem settings_append_pair (rest : Environment) {v w : String × String}
    {a b : List String × Scalar} (hv : path? v.1 = some a.1 ∧ Setting.read v.2 = a.2)
    (hw : path? w.1 = some b.1 ∧ Setting.read w.2 = b.2) :
    (rest ++ [v, w] : Environment).settings = rest.settings ++ [a] ++ [b] := by
  have htwo : settings [v, w] = [a, b] := by
    simp only [settings, List.filterMap_cons, List.filterMap_nil, hv.1, hv.2, hw.1, hw.2,
      Option.map_some]
  rw [settings, List.filterMap_append, ← settings, ← settings, htwo, List.append_assoc,
    List.singleton_append]

end Environment

/-! ### New settings -/

namespace Registry

variable {r r' : Registry} {f : Files} {file : Option String} {e : Environment} {n : Nat}
  {s u t : Store} {l : Layers}

/-- Everything that is read from settings is the same in two registries, but for the
order of keys. -/
structure SameSettings [Stack] (r r' : Registry) (n : Nat) : Prop where
  /-- Looking up finds the same, from the same source. -/
  found : ∀ path, Layers.SameFinding r.store r'.store (r.find? n path) (r'.find? n path)
  /-- Merging fails for the same reason, or what comes of it is the same. -/
  merged : (∃ fault s s', r.merged n = (.error fault, s) ∧ r'.merged n = (.error fault, s')) ∨
    ∃ all s all' s', r.merged n = (.ok all, s) ∧ r'.merged n = (.ok all', s') ∧
      s.store.Rearranged s'.store all all'

theorem sameSettings_of_alike [Stack] (h : (r.layers n).Alike r.store (r'.layers n) r'.store)
    (hl : (r.layers n).Plain r.store) (hl' : (r'.layers n).Plain r'.store) :
    SameSettings r r' n := by
  refine ⟨h.find? hl.ready.sound hl'.ready.sound, ?_⟩
  unfold Registry.merged
  rcases h.merged hl.ready hl'.ready fun source hne => ⟨hl.texts source hne, hl'.texts source hne⟩
    with ⟨fault, t, t', hfails, hfails'⟩ | ⟨all, t, all', t', hok, hok', halike⟩
  · rw [hfails, hfails']
    exact .inl ⟨_, _, _, rfl, rfl⟩
  · rw [hok, hok']
    exact .inr ⟨_, _, _, _, rfl, rfl, halike⟩

/-- A registry with settings that have just been added. -/
def withNew (r : Registry) (l : Layers) (s : Store) : Registry :=
  { r with store := s, settings := r.settings ++ [⟨l, []⟩] }

theorem layers_withNew (r : Registry) (l : Layers) (s : Store) :
    (r.withNew l s).layers r.settings.length = l := by
  unfold Registry.layers withNew
  rw [List.getElem?_concat_length]
  rfl

theorem find?_withNew (r : Registry) (l : Layers) (s : Store) (path : List String) :
    (r.withNew l s).find? r.settings.length path = l.find? s path := by
  show ((r.withNew l s).layers _).find? s path = _
  rw [layers_withNew]

theorem add_eq_ok_iff {environment : Option Environment} :
    r.add f file environment = (.ok n, r') ↔
      ∃ l t, newLayers f file environment r.store = (.ok l, t) ∧ n = r.settings.length ∧
        r' = r.withNew l t := by
  unfold Registry.add
  cases hnew : newLayers f file environment r.store with
  | mk outcome t =>
    cases outcome with
    | ok l =>
      constructor
      · intro h
        cases h
        exact ⟨l, t, rfl, rfl, rfl⟩
      · rintro ⟨l', t', hl, rfl, rfl⟩
        cases hl
        rfl
    | error fault =>
      refine iff_of_false nofun ?_
      rintro ⟨l', t', hl, -⟩
      cases hl

/-- The environment is read last. -/
theorem newLayers_some (h : newLayers f file none s = (.ok l, u)) (e : Environment) :
    newLayers f file (some e) s = match e.load l u with
      | (.ok l, s) => (.ok l, s)
      | (.error fault, s) => (.error (.blocked fault), s) := by
  unfold newLayers at h ⊢
  dsimp only at h ⊢
  split at h
  · cases h
  · cases h
    rfl

/-- New settings with an environment, where they can be made without it. -/
theorem add_some_eq_ok_iff (hnew : newLayers f file none r.store = (.ok l, u)) :
    r.add f file (some e) = (.ok n, r') ↔
      ∃ l' t, e.load l u = (.ok l', t) ∧ n = r.settings.length ∧ r' = r.withNew l' t := by
  rw [add_eq_ok_iff]
  refine exists_congr fun l' => exists_congr fun t => and_congr_left fun _ => ?_
  rw [newLayers_some hnew]
  cases hload : e.load l u with
  | mk outcome t' =>
    cases outcome with
    | ok l'' =>
      constructor <;>
      · intro h
        cases h
        rfl
    | error fault => exact iff_of_false nofun nofun

/-- The settings of an environment do not depend on its order: in all orders they can
be made, and are the same. -/
def SameInAnyOrder [Stack] (r : Registry) (f : Files) (file : Option String) (e : Environment)
    (n : Nat) : Prop :=
  ∀ e', e.Perm e' → ∃ r₁ r₂, r.add f file (some e) = (.ok n, r₁) ∧
    r.add f file (some e') = (.ok n, r₂) ∧ SameSettings r₁ r₂ n

theorem sameInAnyOrder_of_orderless [Stack] (hr : r.Sound)
    (hnew : newLayers f file none r.store = (.ok l, u)) (h : e.Orderless) :
    r.SameInAnyOrder f file e r.settings.length := by
  intro e' hperm
  obtain ⟨l₁, t₁, l₂, t₂, hload₁, hload₂, hplain₁, hplain₂, halike⟩ :=
    Environment.exists_load h hperm (plain_newLayers hr.store hnew)
  refine ⟨r.withNew l₁ t₁, r.withNew l₂ t₂,
    (add_some_eq_ok_iff hnew).mpr ⟨l₁, t₁, hload₁, rfl, rfl⟩,
    (add_some_eq_ok_iff hnew).mpr ⟨l₂, t₂, hload₂, rfl, rfl⟩, ?_⟩
  rw [← layers_withNew r l₁ t₁] at hplain₁ halike
  rw [← layers_withNew r l₂ t₂] at hplain₂ halike
  exact sameSettings_of_alike halike hplain₁ hplain₂

/-- The setting of the variable that is read last in some order is found in all. -/
theorem find?_of_sameInAnyOrder [Stack] {e' : Environment} {settings : List (List String × Scalar)}
    {b : List String × Scalar} (hr : r.Sound)
    (hnew : newLayers f file none r.store = (.ok l, u)) (h : r.SameInAnyOrder f file e n)
    (hperm : e.Perm e') (hlast : e'.settings = settings ++ [b])
    (hadd : r.add f file (some e) = (.ok n, r')) :
    r'.find? n (Setting.rootSection :: b.1) = some (.environment, .scalar b.2) := by
  obtain ⟨r₁, r₂, hadd₁, hadd₂, hsame⟩ := h e' hperm
  cases hadd.symm.trans hadd₁
  obtain ⟨l', t, hload, rfl, rfl⟩ := (add_some_eq_ok_iff hnew).mp hadd₂
  have hfound := hsame.found (Setting.rootSection :: b.1)
  rw [find?_withNew, Environment.find?_of_load_last (plain_newLayers hr.store hnew) hlast hload]
    at hfound
  exact Layers.eq_of_sameFinding_scalar hfound

/-- If new settings are the same in all orders, no variable is in the way of another:
of two that are, each is read last in some order. -/
theorem orderless_of_sameInAnyOrder [Stack] (hr : r.Sound)
    (hnew : newLayers f file none r.store = (.ok l, u)) (h : r.SameInAnyOrder f file e n) :
    e.Orderless := by
  intro a ha b hb hbehind
  obtain ⟨v, hv, hvSetting⟩ := Environment.mem_settings_iff.mp ha
  obtain ⟨w, hw, hwSetting⟩ := Environment.mem_settings_iff.mp hb
  by_contra hne
  have hvw : v ≠ w := by
    rintro rfl
    refine hne (Prod.ext (Option.some.inj ?_) ?_)
    · rw [← hvSetting.1, hwSetting.1]
    · rw [← hvSetting.2, hwSetting.2]
  obtain ⟨rest, hperm, hperm'⟩ := Environment.exists_perm_last hv hw hvw
  have hlast := Environment.settings_append_pair rest hvSetting hwSetting
  have hlast' := Environment.settings_append_pair rest hwSetting hvSetting
  obtain ⟨r₁, r₂, hadd, hadd', -⟩ := h _ hperm
  by_cases hpath : a.1 = b.1
  · -- both values are found under the one path
    have hfound := find?_of_sameInAnyOrder hr hnew h hperm hlast hadd
    have hfound' := find?_of_sameInAnyOrder hr hnew h hperm' hlast' hadd
    rw [hpath, hfound] at hfound'
    refine hne (Prod.ext hpath ?_)
    injection hfound' with hpair
    injection hpair with _ hitem
    injection hitem with hvalue
    exact hvalue.symm
  · -- the longer path cannot be read behind the shorter one
    obtain ⟨l', t, hload, -⟩ := (add_some_eq_ok_iff hnew).mp hadd'
    exact Environment.not_load_of_behind (plain_newLayers hr.store hnew) hlast hbehind hpath hload

/-- Two variables beside each other, and one that does not count. -/
def sideBySide : Environment :=
  [("RESFILTER_LOGGING_LEVEL", "DEBUG"), ("PATH", "/bin"), ("RESFILTER_LIMITS_DEPTH", "3")]

/-- A variable, and one that goes on behind it. -/
def inTheWay : Environment := [("RESFILTER_A", "1"), ("RESFILTER_A_B", "2")]

theorem settings_sideBySide : sideBySide.settings =
    [(["logging", "level"], Setting.read "DEBUG"), (["limits", "depth"], Setting.read "3")] := by
  have hlevel : Environment.path? "RESFILTER_LOGGING_LEVEL" = some ["logging", "level"] := by
    decide +kernel
  have hother : Environment.path? "PATH" = none := by decide +kernel
  have hdepth : Environment.path? "RESFILTER_LIMITS_DEPTH" = some ["limits", "depth"] := by
    decide +kernel
  simp only [Environment.settings, sideBySide, List.filterMap_cons, List.filterMap_nil, hlevel,
    hother, hdepth, Option.map_some, Option.map_none]

theorem orderless_sideBySide : sideBySide.Orderless := by
  intro a ha b hb hbehind
  rw [settings_sideBySide] at ha hb
  simp only [List.mem_cons, List.not_mem_nil, or_false] at ha hb
  rcases ha with rfl | rfl <;> rcases hb with rfl | rfl
  · rfl
  · exact absurd hbehind (by decide)
  · exact absurd hbehind (by decide)
  · rfl

theorem settings_inTheWay : inTheWay.settings =
    [] ++ [(["a"], Setting.read "1")] ++ [(["a", "b"], Setting.read "2")] := by
  have hfirst : Environment.path? "RESFILTER_A" = some ["a"] := by decide +kernel
  have hsecond : Environment.path? "RESFILTER_A_B" = some ["a", "b"] := by decide +kernel
  simp only [Environment.settings, inTheWay, List.filterMap_cons, List.filterMap_nil, hfirst,
    hsecond, Option.map_some, List.nil_append, List.singleton_append]

theorem add_without_variables : (empty.add .empty none none).1 = .ok 0 := by cbv

/-- **The order of environment variables.**  Let new settings be made where the
environment is not read.  Then they are made in any order of the variables, and are
the same in all of them, just if no variable is in the way of another. -/
theorem sameInAnyOrder_iff [Stack] (hr : r.Reachable) (hfile : (r.add f file none).1 = .ok n) :
    r.SameInAnyOrder f file e n ↔ e.Orderless := by
  obtain ⟨l, u, hnew, rfl, -⟩ := add_eq_ok_iff.mp (Prod.ext hfile rfl)
  exact ⟨orderless_of_sameInAnyOrder hr.sound hnew, sameInAnyOrder_of_orderless hr.sound hnew⟩

open scoped Stack in
theorem sameInAnyOrder_sideBySide :
    empty.SameInAnyOrder .empty none sideBySide 0 :=
  (sameInAnyOrder_iff .empty add_without_variables).mpr orderless_sideBySide

open scoped Stack in
/-- **Variables can be in one another's way.**  No settings are made where a variable
goes on behind one that has given a scalar before. -/
theorem not_sameInAnyOrder : ¬ ∀ (r : Registry) (f : Files) (file : Option String)
    (e : Environment) (n : Nat), r.Reachable → (r.add f file none).1 = .ok n →
    r.SameInAnyOrder f file e n := by
  intro hall
  obtain ⟨-, r', -, hadd, -⟩ := hall empty .empty none inTheWay 0 .empty
    add_without_variables inTheWay (List.Perm.refl _)
  obtain ⟨l, u, hnew, -⟩ := add_eq_ok_iff.mp (Prod.ext add_without_variables rfl)
  obtain ⟨l', t, hload, -⟩ := (add_some_eq_ok_iff hnew).mp hadd
  exact Environment.not_load_of_behind (plain_newLayers sound_empty.store hnew) settings_inTheWay
    (by decide) (by decide) hload

end Registry

end Winnow
