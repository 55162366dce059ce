/-
Winnow/Proofs/Settings/Sound.lean

Operations on settings leave nothing dangling.

A registry is sound when its store is, and the objects that layers and watchers
refer to are in the store (`Registry.Sound`).  Every operation keeps this,
whatever comes of it.  The lemmas on layers come first; a change with all that
watchers make of it is by induction on its course (`Course.leadsTo`).
-/
import Winnow.Proofs.Settings.Course
import Winnow.Proofs.Settings.Layers
import Winnow.Proofs.Store.Copying
import Winnow.Proofs.Yaml.Objects
import Winnow.Settings.Registry

namespace Winnow

open Store (AddsTo LeadsTo fits_mapping fits_mapping_nil growsTo_add holds_add)

/-! ### Layers -/

namespace Layers

variable {l l' : Layers} {s t : Store} {source : Source} {value : Item}

theorem held_none : Layers.none.Held s := nofun

theorem Held.update (hl : l.Held s) {item : Option Item} (hi : ∀ i, item = some i → s.Holds i) :
    (l.update source item).Held s := by
  intro other i h
  unfold Layers.update at h
  split at h
  · exact hi i h
  · exact hl other i h

theorem Held.update_some (hl : l.Held s) (hi : s.Holds value) :
    (l.update source (some value)).Held s :=
  hl.update fun i h => by cases h; exact hi

theorem merged_sound [Stack] {outcome : Except LayerFault Item} (hs : s.Sound)
    (h : l.merged s = (outcome, t)) :
    s.GrowsTo t ∧ t.Sound ∧ ∀ i, outcome = .ok i → t.Holds i := by
  unfold merged at h
  split at h
  · rename_i entries u hmerge
    obtain ⟨hgrows, hu, hentries⟩ := mergeOver_sound hmerge hs fits_mapping_nil
    cases h
    refine ⟨hgrows.trans (growsTo_add u _), hu.add (hentries entries rfl), fun i hi => ?_⟩
    cases hi
    exact holds_add
  · rename_i fault u hmerge
    obtain ⟨hgrows, hu, -⟩ := mergeOver_sound hmerge hs fits_mapping_nil
    cases h
    exact ⟨hgrows, hu, nofun⟩

/-- Putting a setting into a layer, also where it fails. -/
theorem assign_sound (hs : s.Sound) (hl : l.Held s) (hv : s.Holds value) (source : Source)
    (path : List String) : s.LeadsTo (l.assign s source path value).2.2 ∧
      (l.assign s source path value).2.1.Held (l.assign s source path value).2.2 := by
  have hsome (layer : Item) (hlayer : l source = some layer) :
      s.LeadsTo (s.assign value layer path).2 :=
    Store.assign_leadsTo hs hv (hl source layer hlayer) path
  cases hlayer : l source with
  | some layer =>
    have hstep := hsome layer hlayer
    simp only [Layers.assign, ensure, hlayer]
    exact ⟨hstep, hl.mono hstep.size_le⟩
  | none =>
    have hadded : s.LeadsTo (s.add (.mapping [])).2 :=
      (AddsTo.refl.add fits_mapping_nil).leadsTo hs
    have hstep := Store.assign_leadsTo hadded.sound (hadded.holds hv) holds_add path
    have hheld : (l.update source (some (s.add (.mapping [])).1)).Held (s.add (.mapping [])).2 :=
      (hl.mono hadded.size_le).update_some holds_add
    simp only [Layers.assign, ensure, hlayer]
    exact ⟨hadded.trans hstep, hheld.mono hstep.size_le⟩

theorem Held.clear (hl : l.Held s) : (l.clear source).Held s := by
  unfold Layers.clear
  split
  · exact hl
  · exact hl.update nofun

theorem Held.clearAll (hl : l.Held s) : l.clearAll.Held s := by
  intro other i h
  unfold Layers.clearAll at h
  split at h
  · exact hl other i h
  · cases h

theorem loadCopy_sound (hs : s.Sound) (hl : l.Held s) (hv : s.Holds value) (source : Source) :
    s.LeadsTo (l.loadCopy s source value).2 ∧
      (l.loadCopy s source value).1.Held (l.loadCopy s source value).2 := by
  obtain ⟨hsound, hcopied⟩ := Store.copy_sound hs hv
  have hsize := (Store.growsTo_copy s value).size_le
  exact ⟨⟨hsize, hsound⟩, (hl.mono hsize).update_some hcopied⟩

theorem proper_defaults : Setting.defaults.Proper := by
  refine ⟨List.pairwise_singleton _ _,
    ⟨⟨?_, ⟨?_, trivial, trivial, trivial⟩, ?_, trivial⟩, trivial⟩⟩
  · exact Entries.distinctKeys_pair (by decide)
  · exact Entries.distinctKeys_pair (by decide)
  · exact ⟨List.Pairwise.nil, trivial⟩

theorem initial_sound (hs : s.Sound) :
    s.LeadsTo (Layers.initial s).2 ∧ (Layers.initial s).1.Held (Layers.initial s).2 := by
  obtain ⟨hadds, hholds⟩ := Store.place_addsTo s Setting.defaults proper_defaults
  exact ⟨hadds.leadsTo hs, held_none.update_some hholds⟩

end Layers

/-! ### Files and the environment -/

/-- A settings file only adds objects. -/
theorem readFile_sound {f : Files} {path : String} {s t : Store} {i : Item} (hs : s.Sound)
    (h : Setting.readFile f path s = .ok (i, t)) : s.GrowsTo t ∧ t.Sound ∧ t.Holds i := by
  obtain ⟨p, -, h⟩ := except_bind_eq_ok_iff.mp h
  dsimp only at h
  split at h
  · cases h
  · split at h
    · cases h
    · cases h
    · split at h
      · cases h
      · cases h
      · unfold Setting.readDocument at h
        split at h
        · cases h
        · cases h
        · rename_i hload
          split at h
          · cases h
            exact Yaml.load_sound hs hload
          · cases h

theorem Layers.loadFile_sound {l l' : Layers} {f : Files} {path : String} {source : Source}
    {s t : Store} (hs : s.Sound) (hl : l.Held s)
    (h : l.loadFile f path source s = .ok (l', t)) : s.LeadsTo t ∧ l'.Held t := by
  obtain ⟨⟨i, u⟩, hread, h⟩ := except_bind_eq_ok_iff.mp h
  cases h
  obtain ⟨hgrows, ht, hi⟩ := readFile_sound hs hread
  exact ⟨⟨hgrows.size_le, ht⟩, (hl.mono hgrows.size_le).update_some hi⟩

namespace Environment

theorem assignAll_leadsTo {root : Item} {settings : List (List String × Scalar)} {s : Store}
    (hs : s.Sound) (hroot : s.Holds root) : s.LeadsTo (assignAll root settings s).2 := by
  induction settings generalizing s with
  | nil => exact .refl hs
  | cons setting rest ih =>
    obtain ⟨path, value⟩ := setting
    have hvalue : s.Holds (.scalar value) := trivial
    have hstep := Store.assign_leadsTo hs hvalue hroot path
    rw [assignAll]
    split
    · rename_i t heq
      rw [heq] at hstep
      exact hstep.trans (ih hstep.sound (hstep.holds hroot))
    · rename_i fault t heq
      rw [heq] at hstep
      exact hstep

/-- Reading the environment keeps a store sound, also where it fails. -/
theorem load_sound {e : Environment} {l : Layers} {s t : Store}
    {outcome : Except SectionFault Layers} (hs : s.Sound) (hl : l.Held s)
    (h : e.load l s = (outcome, t)) :
    s.LeadsTo t ∧ ∀ l', outcome = .ok l' → l'.Held t := by
  unfold Environment.load at h
  dsimp only at h
  split at h
  · cases h
    refine ⟨.refl hs, fun l' hl' => ?_⟩
    cases hl'
    exact hl
  · have hadded : s.LeadsTo (s.add (.mapping [])).2 :=
      (AddsTo.refl.add fits_mapping_nil).leadsTo hs
    have hall : LeadsTo _
        (assignAll (s.add (.mapping [])).1 e.settings (s.add (.mapping [])).2).2 :=
      assignAll_leadsTo hadded.sound holds_add
    have hroot := hall.holds holds_add
    split at h
    · rename_i fault u heq
      rw [heq] at hall
      cases h
      exact ⟨hadded.trans hall, nofun⟩
    · rename_i u heq
      rw [heq] at hall hroot
      cases h
      have hentries : u.Fits (.mapping [(.text Setting.rootSection, (s.add (.mapping [])).1)]) :=
        fits_mapping.mpr ⟨List.forall_mem_singleton.mpr hroot, List.pairwise_singleton _ _⟩
      have hlast := (AddsTo.refl.add hentries).leadsTo hall.sound
      have hwhole := (hadded.trans hall).trans hlast
      refine ⟨hwhole, fun l' hl' => ?_⟩
      cases hl'
      exact (hl.mono hwhole.size_le).update_some holds_add

end Environment

/-! ### Registries -/

/-- The object that an action sets is in a store. -/
def Action.Held (s : Store) : Action → Prop
  | .set _ _ value _ => s.Holds value
  | _ => True

theorem Action.Held.mono {s t : Store} {action : Action} (h : s.size ≤ t.size)
    (ha : action.Held s) : action.Held t := by
  cases action with
  | set n path value source => exact Store.Holds.mono h ha
  | _ => trivial

/-- The objects that a reaction sets are in a store, or come with what is told. -/
def Reaction.Held (s : Store) (reaction : Reaction) : Prop :=
  ∀ turn told, s.size ≤ told.store.size → told.store.Sound → told.store.Holds told.item →
    ∀ a ∈ reaction.actions turn told, a.Held told.store

theorem Reaction.Held.mono {s t : Store} {reaction : Reaction} (h : s.size ≤ t.size)
    (hr : reaction.Held s) : reaction.Held t :=
  fun turn told hsize => hr turn told (Nat.le_trans h hsize)

theorem Reaction.held_none {s : Store} : Reaction.none.Held s :=
  fun _ _ _ _ _ _ ha => absurd ha List.not_mem_nil

theorem Reaction.eq_of_mem_set {n turn : Nat} {path : List String} {value : Item} {told : Stored}
    {a : Action} (h : a ∈ (Reaction.set n path value).actions turn told) :
    a = .set n path value .runtime := by
  have hmem : a ∈ if turn = 0 then [Action.set n path value .runtime] else [] := h
  split at hmem
  · exact List.mem_singleton.mp hmem
  · cases hmem

theorem Reaction.held_set {s : Store} {n : Nat} {path : List String} {value : Item}
    (h : s.Holds value) : (Reaction.set n path value).Held s := by
  intro turn told hsize _ _ a ha
  rw [Reaction.eq_of_mem_set ha]
  exact h.mono hsize

/-- The objects that a task is about are in a store. -/
def Task.Held (s : Store) : Task → Prop
  | .change _ _ _ value => s.Holds value
  | .round item _ => s.Holds item
  | .actions _ row => ∀ a ∈ row, a.Held s

namespace Registry

/-- Nothing that a registry refers to is missing. -/
structure Sound (r : Registry) : Prop where
  store : r.store.Sound
  settings : ∀ c ∈ r.settings, c.layers.Held r.store
  reactions : ∀ w ∈ r.reactions, w.2.Held r.store

variable {r r' : Registry} {n : Nat} {s : Store} {l : Layers} {value : Item} {path : List String}
  {source : Source}

theorem sound_empty : empty.Sound := by
  refine ⟨fun a c hc => ?_, nofun, nofun⟩
  exact absurd (Store.lt_size_of_cell? hc) (Nat.not_lt_zero a)

theorem Sound.layers (hr : r.Sound) (n : Nat) : (r.layers n).Held r.store := by
  unfold Registry.layers
  cases hc : r.settings[n]? with
  | none => exact Layers.held_none
  | some c => exact hr.settings c (List.mem_of_getElem? hc)

/-- The reaction of a watcher is one that has been fixed, or none. -/
theorem reaction_eq_none_or_mem (r : Registry) (name : String) :
    r.reaction name = .none ∨ (name, r.reaction name) ∈ r.reactions := by
  unfold Registry.reaction
  cases hfound : r.reactions.lookup name with
  | none => exact .inl rfl
  | some reaction =>
    obtain ⟨before, after, hall, -⟩ := List.lookup_eq_some_iff.mp hfound
    rw [hall]
    exact .inr (List.mem_append_right _ List.mem_cons_self)

theorem Sound.reaction (hr : r.Sound) (name : String) : (r.reaction name).Held r.store := by
  rcases r.reaction_eq_none_or_mem name with hnone | hmem
  · rw [hnone]
    exact Reaction.held_none
  · exact hr.reactions _ hmem

theorem Sound.withStore (hr : r.Sound) (h : r.store.LeadsTo s) : Sound { r with store := s } :=
  ⟨h.sound, fun c hc => (hr.settings c hc).mono h.size_le,
    fun w hw => (hr.reactions w hw).mono h.size_le⟩

/-- What holds of all settings does so after a change of some for which it holds then. -/
theorem forall_mem_update {p : Settings → Prop} {f : Settings → Settings}
    (hall : ∀ c ∈ r.settings, p c) (hf : ∀ c, r.settings[n]? = some c → p (f c)) :
    ∀ c ∈ (r.update n f).settings, p c := by
  intro c hc
  obtain ⟨m, hm⟩ := List.mem_iff_getElem?.mp hc
  have hmodify : (r.settings.modify n f)[m]? = some c := hm
  rw [List.getElem?_modify] at hmodify
  obtain ⟨d, hd, hfd⟩ := Option.map_eq_some_iff.mp hmodify
  subst hfd
  split
  · rename_i hnm
    exact hf d (hnm ▸ hd)
  · exact hall d (List.mem_of_getElem? hd)

theorem Sound.update (hr : r.Sound) {f : Settings → Settings}
    (hf : ∀ c ∈ r.settings, (f c).layers.Held r.store) : (r.update n f).Sound :=
  ⟨hr.store, forall_mem_update hr.settings fun c hc => hf c (List.mem_of_getElem? hc),
    hr.reactions⟩

theorem Sound.setLayers (hr : r.Sound) (h : r.store.LeadsTo s) (hl : l.Held s) :
    (r.setLayers n l s).Sound :=
  (hr.withStore h).update fun _ _ => hl

/-! ### Rounds of changes -/

/-- A registry is followed by one that is sound, and has all objects of the first. -/
structure LeadsTo (r r' : Registry) : Prop where
  size_le : r.store.size ≤ r'.store.size
  sound : r'.Sound

theorem LeadsTo.refl (hr : r.Sound) : r.LeadsTo r := ⟨Nat.le_refl _, hr⟩

theorem LeadsTo.trans {r'' : Registry} (h : r.LeadsTo r') (k : r'.LeadsTo r'') : r.LeadsTo r'' :=
  ⟨Nat.le_trans h.size_le k.size_le, k.sound⟩

theorem assign_leadsTo {outcome : Except SettingFault Unit} (hr : r.Sound)
    (hv : r.store.Holds value) (h : r.assign n path value source = (outcome, r')) :
    r.LeadsTo r' := by
  have hstep := Layers.assign_sound hr.store (hr.layers n) hv source path
  unfold Registry.assign at h
  split at h
  · rename_i l s heq
    rw [heq] at hstep
    cases h
    exact ⟨hstep.1.size_le, hr.setLayers hstep.1 hstep.2⟩
  · rename_i fault l s heq
    rw [heq] at hstep
    cases h
    exact ⟨hstep.1.size_le, hr.setLayers hstep.1 hstep.2⟩

theorem merged_leadsTo [Stack] {outcome : Except SettingFault Item} (hr : r.Sound)
    (h : r.merged n = (outcome, r')) :
    r.LeadsTo r' ∧ ∀ item, outcome = .ok item → r'.store.Holds item := by
  unfold Registry.merged at h
  split at h
  · rename_i item s hmerged
    obtain ⟨hgrows, hs, hheld⟩ := Layers.merged_sound hr.store hmerged
    cases h
    refine ⟨⟨hgrows.size_le, hr.withStore ⟨hgrows.size_le, hs⟩⟩, fun i hi => ?_⟩
    cases hi
    exact hheld item rfl
  · rename_i fault s hmerged
    obtain ⟨hgrows, hs, -⟩ := Layers.merged_sound hr.store hmerged
    cases h
    exact ⟨⟨hgrows.size_le, hr.withStore ⟨hgrows.size_le, hs⟩⟩, nofun⟩

theorem edit_leadsTo (hr : r.Sound) (action : Action) : r.LeadsTo (r.edit action) := by
  cases action with
  | dismiss n other => exact ⟨Nat.le_refl _, hr.update fun c hc => hr.settings c hc⟩
  | invite n other => exact ⟨Nat.le_refl _, hr.update fun c hc => hr.settings c hc⟩
  | _ => exact .refl hr

theorem note_leadsTo (hr : r.Sound) (name : String) (item : Item) :
    r.LeadsTo (r.note name item) :=
  ⟨Nat.le_refl _, hr.store, hr.settings, hr.reactions⟩

/-- What a watcher does with what it is told. -/
theorem Sound.actionsOf (hr : r.Sound) {item : Item} (hitem : r.store.Holds item)
    (name : String) : ∀ a ∈ r.actionsOf name item, a.Held r.store :=
  hr.reaction name (r.turns.count name) ⟨r.store, item⟩ (Nat.le_refl _) hr.store hitem

/-- **A course that begins in a sound registry ends in one**, whatever comes of it. -/
theorem Course.leadsTo [Stack] {P : Nat → Item → Registry → Prop} {task : Task} {o : Outcome Unit}
    (h : Course P task r o) (hr : r.Sound) (htask : task.Held r.store) : r.LeadsTo o.2 := by
  induction h with
  | limit => exact .refl hr
  | blocked hassign => exact assign_leadsTo hr htask hassign
  | unmerged hassign hmerged =>
    have hstep := assign_leadsTo hr htask hassign
    exact hstep.trans (merged_leadsTo hstep.sound hmerged).1
  | @told r r₁ r₂ source n path value item o hassign hmerged _ _ ih =>
    have hstep := assign_leadsTo hr htask hassign
    obtain ⟨hstep', hitem⟩ := merged_leadsTo hstep.sound hmerged
    exact (hstep.trans hstep').trans (ih hstep'.sound (hitem item rfl))
  | nobody => exact .refl hr
  | @failed r r₁ item name fault rest _ ih =>
    have hnote := note_leadsTo hr name item
    exact hnote.trans (ih hnote.sound (hr.actionsOf htask name))
  | @next r r₁ item name rest o _ _ ih ih' =>
    have hnote := note_leadsTo hr name item
    have hstep := hnote.trans (ih hnote.sound (hr.actionsOf htask name))
    exact hstep.trans (ih' hstep.sound (Store.Holds.mono hstep.size_le htask))
  | nothing => exact .refl hr
  | fail => exact .refl hr
  | @edit r name action rest o _ _ ih =>
    obtain ⟨-, hrest⟩ := List.forall_mem_cons.mp htask
    have hstep := edit_leadsTo hr action
    exact hstep.trans (ih hstep.sound fun a ha => (hrest a ha).mono hstep.size_le)
  | stopped rest _ ih => exact ih hr (List.forall_mem_cons.mp htask).1
  | changed _ _ ih ih' =>
    obtain ⟨hfirst, hrest⟩ := List.forall_mem_cons.mp htask
    have hstep := ih hr hfirst
    exact hstep.trans (ih' hstep.sound fun a ha => (hrest a ha).mono hstep.size_le)

theorem merged_sound [Stack] (hr : r.Sound) (n : Nat) : (r.merged n).2.Sound :=
  (merged_leadsTo hr rfl).1.sound

theorem set_leadsTo [Stack] (hr : r.Sound) (hv : r.store.Holds value) (n : Nat) (path : List String)
    (source : Source) : r.LeadsTo (r.set n path value source).2 :=
  (course_set r n path value source).leadsTo hr hv

/-! ### Loading and clearing -/

theorem loadFile_sound (hr : r.Sound) (n : Nat) (f : Files) (path : String) (source : Source) :
    (r.loadFile n f path source).2.Sound := by
  unfold Registry.loadFile
  split
  · rename_i l s hload
    obtain ⟨hstep, hl⟩ := Layers.loadFile_sound hr.store (hr.layers n) hload
    exact hr.setLayers hstep hl
  · exact hr

theorem loadCopy_sound (hr : r.Sound) (hv : r.store.Holds value) (n : Nat) (source : Source) :
    (r.loadCopy n value source).Sound := by
  obtain ⟨hstep, hl⟩ := Layers.loadCopy_sound (l := r.layers n) hr.store (hr.layers n) hv source
  exact hr.setLayers hstep hl

theorem clear_sound (hr : r.Sound) (n : Nat) (source : Option Source) :
    (r.clear n source).Sound := by
  refine hr.update fun c hc => ?_
  cases source with
  | some source => exact (hr.settings c hc).clear
  | none => exact (hr.settings c hc).clearAll

/-! ### New settings -/

/-- What holds of the defaults, and stays so when a file or the environment is loaded over them,
holds of all new layers; and what follows for the store does so where loading fails, too. -/
theorem newLayers_preserve {f : Files} {file : Option String} {environment : Option Environment}
    {t : Store} {outcome : Except SettingFault Layers} {J : Layers → Store → Prop}
    {I : Store → Prop} (h : newLayers f file environment s = (outcome, t))
    (hstore : ∀ l u, J l u → I u) (hinitial : J (Layers.initial s).1 (Layers.initial s).2)
    (hfile : ∀ path l u,
      (Layers.initial s).1.loadFile f path .file (Layers.initial s).2 = .ok (l, u) → J l u)
    (henvironment : ∀ e l u loaded v, environment = some e → J l u → e.load l u = (loaded, v) →
      I v ∧ ∀ l', loaded = .ok l' → J l' v) :
    I t ∧ ∀ l, outcome = .ok l → J l t := by
  have hok {l : Layers} {u : Store} (hl : J l u) :
      I u ∧ ∀ l', (.ok l : Except SettingFault Layers) = .ok l' → J l' u :=
    ⟨hstore l u hl, fun l' hl' => by cases hl'; exact hl⟩
  unfold newLayers at h
  dsimp only at h
  split at h
  · cases h
    exact ⟨hstore _ _ hinitial, nofun⟩
  · rename_i l u hloaded
    -- the file comes over the defaults, and the environment over both
    have hl : J l u := by
      split at hloaded
      · split at hloaded
        · cases hloaded
          exact hinitial
        · exact hfile _ _ _ hloaded
      · cases hloaded
        exact hinitial
    split at h
    · cases h
      exact hok hl
    · split at h
      · rename_i hload
        cases h
        exact hok ((henvironment _ _ _ _ _ rfl hl hload).2 _ rfl)
      · rename_i hload
        cases h
        exact ⟨(henvironment _ _ _ _ _ rfl hl hload).1, nofun⟩

theorem newLayers_sound {f : Files} {file : Option String} {environment : Option Environment}
    {t : Store} {outcome : Except SettingFault Layers} (hs : s.Sound)
    (h : newLayers f file environment s = (outcome, t)) :
    s.LeadsTo t ∧ ∀ l, outcome = .ok l → l.Held t := by
  obtain ⟨hinitial, hheld⟩ := Layers.initial_sound hs
  have hboth := newLayers_preserve (I := s.LeadsTo) (J := fun l u => s.LeadsTo u ∧ l.Held u) h
    (fun _ _ hl => hl.1) ⟨hinitial, hheld⟩ ?_ ?_
  · exact ⟨hboth.1, fun l heq => (hboth.2 l heq).2⟩
  · intro path l u hloaded
    obtain ⟨hstep, hl⟩ := Layers.loadFile_sound hinitial.sound hheld hloaded
    exact ⟨hinitial.trans hstep, hl⟩
  · rintro e l u loaded v - ⟨hleads, hl⟩ hload
    obtain ⟨hstep, hl'⟩ := Environment.load_sound hleads.sound hl hload
    exact ⟨hleads.trans hstep, fun l' heq => ⟨hleads.trans hstep, hl' l' heq⟩⟩

theorem add_sound (hr : r.Sound) (f : Files) (file : Option String)
    (environment : Option Environment) : (r.add f file environment).2.Sound := by
  unfold Registry.add
  split
  · rename_i l s hnew
    obtain ⟨hstep, hl⟩ := newLayers_sound hr.store hnew
    obtain ⟨hstore, hsettings, hreactions⟩ := hr.withStore hstep
    refine ⟨hstore, List.forall_mem_append.mpr ⟨hsettings, ?_⟩, hreactions⟩
    exact List.forall_mem_singleton.mpr (hl l rfl)
  · rename_i fault s hnew
    exact hr.withStore (newLayers_sound hr.store hnew).1

/-- Asking for the settings of the program changes nothing, or adds settings. -/
theorem globalSettings_cases (r : Registry) (f : Files) (file : Option String)
    (environment : Environment) : (r.globalSettings f file environment).2 = r
      ∨ ∃ g, (r.globalSettings f file environment).2
        = { (r.add f file (some environment)).2 with global := g } := by
  unfold Registry.globalSettings
  split
  · exact .inl rfl
  · split <;>
    · rename_i heq
      rw [heq]
      exact .inr ⟨_, rfl⟩

theorem globalSettings_sound (hr : r.Sound) (f : Files) (file : Option String)
    (environment : Environment) : (r.globalSettings f file environment).2.Sound := by
  rcases r.globalSettings_cases f file environment with heq | ⟨g, heq⟩ <;> rw [heq]
  · exact hr
  · obtain ⟨hstore, hsettings, hreactions⟩ := add_sound hr f file (some environment)
    exact ⟨hstore, hsettings, hreactions⟩

theorem introduce_sound (hr : r.Sound) {reaction : Reaction} (hreaction : reaction.Held r.store)
    (name : String) : (r.introduce name reaction).Sound := by
  unfold introduce
  split
  · exact hr
  · exact ⟨hr.store, hr.settings, List.forall_mem_cons.mpr ⟨hreaction, hr.reactions⟩⟩

end Registry

end Winnow
