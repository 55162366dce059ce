/-
Winnow/Proofs/Settings/Mappings.lean

Layers that are mappings, and what follows for reading all settings merged.

No change makes a mapping anything else (`Store.KeepsMappings`), and every
operation adds layers that are mappings, but for loading a copy: it puts into a
layer what it is given.  So where only mappings are loaded, all layers are
mappings (`ofMappings_of_reached`).  Merging then fails for depth alone, and so
does a change that can be made and of which nobody who is told of it fails
(`merged_or_tooDeep_of_reached`).

Neither holds of everything that can be loaded, nor would depth go without
saying (`not_merged_of_reached`).
-/
import Mathlib.Logic.Relation
import Winnow.Proofs.Settings.Order
import Winnow.Proofs.Settings.Rounds

namespace Winnow

/-! ### Cells -/

namespace Store

variable {s t u : Store} {i j value : Item} {a : Nat}

/-- What is a mapping in a store is one in another. -/
def KeepsMappings (s t : Store) : Prop :=
  ∀ i, (s.entries? i).isSome = true → (t.entries? i).isSome = true

theorem KeepsMappings.refl (s : Store) : s.KeepsMappings s := fun _ h => h

theorem KeepsMappings.trans (h : s.KeepsMappings t) (k : t.KeepsMappings u) : s.KeepsMappings u :=
  fun i hi => k i (h i hi)

theorem isSome_entries?_iff :
    (s.entries? i).isSome = true
      ↔ ∃ a entries, i = .object a ∧ s.cell? a = some (.mapping entries) := by
  rw [Option.isSome_iff_exists]
  constructor
  · rintro ⟨entries, hentries⟩
    obtain ⟨a, rfl, hcell⟩ := entries?_eq_some_iff.mp hentries
    exact ⟨a, entries, rfl, hcell⟩
  · rintro ⟨a, entries, rfl, hcell⟩
    exact ⟨entries, entries?_eq_some_iff.mpr ⟨a, rfl, hcell⟩⟩

theorem holds_of_isSome_entries? (h : (s.entries? i).isSome = true) : s.Holds i := by
  obtain ⟨entries, hentries⟩ := Option.isSome_iff_exists.mp h
  exact holds_of_entries? hentries

theorem GrowsTo.keepsMappings (h : s.GrowsTo t) : s.KeepsMappings t := by
  intro i hi
  obtain ⟨entries, hentries⟩ := Option.isSome_iff_exists.mp hi
  exact Option.isSome_iff_exists.mpr ⟨entries, h.entries?_of_eq_some hentries⟩

theorem keepsMappings_put_mapping (s : Store) (a : Nat) (entries : List (Value × Item)) :
    s.KeepsMappings (s.put a (.mapping entries)) := by
  intro i hi
  obtain ⟨b, old, rfl, hcell⟩ := isSome_entries?_iff.mp hi
  refine isSome_entries?_iff.mpr ?_
  by_cases hb : a = b
  · subst hb
    exact ⟨a, entries, rfl, cell?_put_self hcell⟩
  · exact ⟨b, old, rfl, (cell?_put_of_ne hb).trans hcell⟩

theorem keepsMappings_put_list {items : List Item} (hcell : s.cell? a = some (.list items))
    (c : Cell) : s.KeepsMappings (s.put a c) := by
  intro i hi
  obtain ⟨b, old, rfl, hb⟩ := isSome_entries?_iff.mp hi
  have hne : a ≠ b := by
    rintro rfl
    cases hcell.symm.trans hb
  exact isSome_entries?_iff.mpr ⟨b, old, rfl, (cell?_put_of_ne hne).trans hb⟩

theorem keepsMappings_assign (s : Store) (value i : Item) (path : List String) :
    s.KeepsMappings (s.assign value i path).2 := by
  fun_induction Store.assign s value i path with
  | case1 => exact .refl _
  | case2 => exact keepsMappings_put_mapping _ _ _
  | case3 => exact .refl _
  | case4 _ _ _ _ _ _ _ _ _ _ _ ih => exact ih
  | case5 s i key rest hrest address entries hentries haddress hfind fresh t hadd ih =>
    cases hadd
    exact ((growsTo_add s _).keepsMappings.trans (keepsMappings_put_mapping _ _ _)).trans ih
  | case6 => exact .refl _

theorem keepsMappings_setAt {path : List Value} (h : s.setAt i value path = .ok t) :
    s.KeepsMappings t := by
  fun_induction Store.setAt s i value path with
  | case1 =>
    cases h
    exact .refl _
  | case2 =>
    unfold setElement at h
    split at h
    · split at h
      · cases h
      · cases h
        exact keepsMappings_put_mapping _ _ _
    · rename_i address items haddress hcell
      rw [haddress, Option.bind_some] at hcell
      obtain ⟨n, -, h⟩ := except_bind_eq_ok_iff.mp h
      cases h
      exact keepsMappings_put_list hcell _
    · cases h
  | case3 i key rest hrest ih =>
    obtain ⟨next, -, h⟩ := except_bind_eq_ok_iff.mp h
    exact ih next h

theorem isSome_entries?_place (s : Store) (entries : List (Value × Value)) :
    ((s.place (.mapping entries)).2.entries? (s.place (.mapping entries)).1).isSome = true := by
  rw [place]
  dsimp only
  rw [entries?_add]
  rfl

end Store

theorem Environment.keepsMappings_assignAll (root : Item) (settings : List (List String × Scalar))
    (s : Store) : s.KeepsMappings (assignAll root settings s).2 := by
  induction settings generalizing s with
  | nil => exact .refl s
  | cons setting rest ih =>
    obtain ⟨path, value⟩ := setting
    have hstep := Store.keepsMappings_assign s (.scalar value) root path
    rw [assignAll]
    split
    · rename_i heq
      rw [heq] at hstep
      exact hstep.trans (ih _)
    · rename_i heq
      rw [heq] at hstep
      exact hstep

/-! ### Layers -/

namespace Layers

variable {l l' : Layers} {s t : Store} {source : Source} {value item : Item}

/-- All layers are mappings. -/
def AreMappings (l : Layers) (s : Store) : Prop :=
  ∀ source layer, l source = some layer → (s.entries? layer).isSome = true

theorem areMappings_none : Layers.none.AreMappings s := nofun

theorem AreMappings.mono (hl : l.AreMappings s) (h : s.KeepsMappings t) : l.AreMappings t :=
  fun source layer hlayer => h layer (hl source layer hlayer)

theorem AreMappings.update (hl : l.AreMappings s) (hitem : (s.entries? item).isSome = true) :
    (l.update source (some item)).AreMappings s := by
  intro other layer hlayer
  unfold Layers.update at hlayer
  split at hlayer
  · cases hlayer
    exact hitem
  · exact hl other layer hlayer

/-- Putting a setting into a layer, also where it fails. -/
theorem keepsMappings_assign (l : Layers) (s : Store) (source : Source) (path : List String)
    (value : Item) : s.KeepsMappings (l.assign s source path value).2.2 ∧
      (l.AreMappings s → (l.assign s source path value).2.1.AreMappings
        (l.assign s source path value).2.2) := by
  unfold Layers.assign ensure
  cases hlayer : l source with
  | some layer =>
    have hstep := Store.keepsMappings_assign s value layer path
    exact ⟨hstep, fun hl => hl.mono hstep⟩
  | none =>
    have hadded := (Store.growsTo_add s (.mapping [])).keepsMappings
    have hstep := Store.keepsMappings_assign (s.add (.mapping [])).2 value
      (s.add (.mapping [])).1 path
    have hnew : ((s.add (.mapping [])).2.entries? (s.add (.mapping [])).1).isSome = true := by
      rw [Store.entries?_add]
      rfl
    exact ⟨hadded.trans hstep, fun hl => ((hl.mono hadded).update hnew).mono hstep⟩

theorem AreMappings.clear (hl : l.AreMappings s) : (l.clear source).AreMappings s := by
  intro other layer hlayer
  unfold Layers.clear at hlayer
  split at hlayer
  · exact hl other layer hlayer
  · unfold Layers.update at hlayer
    split at hlayer
    · cases hlayer
    · exact hl other layer hlayer

theorem AreMappings.clearAll (hl : l.AreMappings s) : l.clearAll.AreMappings s := by
  intro other layer hlayer
  unfold Layers.clearAll at hlayer
  split at hlayer
  · exact hl other layer hlayer
  · cases hlayer

theorem AreMappings.loadFile (hs : s.Sound) (hl : l.AreMappings s) {f : Files} {path : String}
    (h : l.loadFile f path source s = .ok (l', t)) :
    s.KeepsMappings t ∧ l'.AreMappings t := by
  obtain ⟨⟨i, u⟩, hread, h⟩ := except_bind_eq_ok_iff.mp h
  cases h
  have hkeeps := (readFile_sound hs hread).1.keepsMappings
  exact ⟨hkeeps, (hl.mono hkeeps).update (isSome_of_readFile hread)⟩

theorem areMappings_initial (s : Store) :
    (Layers.initial s).1.AreMappings (Layers.initial s).2 := by
  have hplaced : ((s.place Setting.defaults).2.entries? (s.place Setting.defaults).1).isSome
      = true := Store.isSome_entries?_place s _
  exact AreMappings.update (s := (s.place Setting.defaults).2) areMappings_none hplaced

theorem AreMappings.load (hl : l.AreMappings s) {e : Environment}
    {outcome : Except SectionFault Layers} (h : e.load l s = (outcome, t)) :
    s.KeepsMappings t ∧ ∀ l', outcome = .ok l' → l'.AreMappings t := by
  unfold Environment.load at h
  dsimp only at h
  split at h
  · cases h
    exact ⟨.refl s, fun l' hl' => by cases hl'; exact hl⟩
  · have hadded := (Store.growsTo_add s (.mapping [])).keepsMappings
    have hall := hadded.trans (Environment.keepsMappings_assignAll (s.add (.mapping [])).1
      e.settings (s.add (.mapping [])).2)
    split at h
    · rename_i fault u heq
      rw [heq] at hall
      cases h
      exact ⟨hall, nofun⟩
    · rename_i u heq
      rw [heq] at hall
      cases h
      have hwhole := hall.trans (Store.growsTo_add u
        (.mapping [(.text Setting.rootSection, (s.add (.mapping [])).1)])).keepsMappings
      refine ⟨hwhole, fun l' hl' => ?_⟩
      cases hl'
      refine (hl.mono hwhole).update ?_
      rw [Store.entries?_add]
      rfl

end Layers

/-! ### Registries -/

namespace Registry

variable {r q : Registry} {n : Nat} {value item : Item} {path : List String} {source : Source}
  {l : Layers} {s t : Store}

/-- The layers of all settings are mappings. -/
def OfMappings (r : Registry) : Prop := ∀ c ∈ r.settings, c.layers.AreMappings r.store

theorem OfMappings.layers (h : r.OfMappings) (n : Nat) : (r.layers n).AreMappings r.store := by
  unfold Registry.layers
  cases hc : r.settings[n]? with
  | none => exact Layers.areMappings_none
  | some c => exact h c (List.mem_of_getElem? hc)

theorem OfMappings.withStore (h : r.OfMappings) (hkeeps : r.store.KeepsMappings s) :
    OfMappings { r with store := s } := fun c hc => (h c hc).mono hkeeps

theorem OfMappings.update (h : r.OfMappings) {f : Settings → Settings}
    (hf : ∀ c ∈ r.settings, (f c).layers.AreMappings r.store) : (r.update n f).OfMappings :=
  forall_mem_update h fun c hc => hf c (List.mem_of_getElem? hc)

theorem OfMappings.setLayers (h : r.OfMappings) (hkeeps : r.store.KeepsMappings s)
    (hl : l.AreMappings s) : (r.setLayers n l s).OfMappings :=
  OfMappings.update (h.withStore hkeeps) fun _ _ => hl

theorem OfMappings.assign {outcome : Except SettingFault Unit} (h : r.OfMappings)
    (hassign : r.assign n path value source = (outcome, q)) : q.OfMappings := by
  have hstep := Layers.keepsMappings_assign (r.layers n) r.store source path value
  unfold Registry.assign at hassign
  split at hassign <;>
  · rename_i heq
    rw [heq] at hstep
    cases hassign
    exact h.setLayers hstep.1 (hstep.2 (h.layers n))

theorem OfMappings.merged [Stack] {outcome : Except SettingFault Item} (h : r.OfMappings)
    (hr : r.Sound) (hmerged : r.merged n = (outcome, q)) : q.OfMappings := by
  unfold Registry.merged at hmerged
  split at hmerged <;>
  · rename_i heq
    cases hmerged
    exact h.withStore (Layers.merged_sound hr.store heq).1.keepsMappings

theorem OfMappings.edit (h : r.OfMappings) (action : Action) : (r.edit action).OfMappings := by
  cases action with
  | dismiss n other => exact h.update fun c hc => h c hc
  | invite n other => exact h.update fun c hc => h c hc
  | _ => exact h

/-- Whatever comes of a change, all layers stay mappings. -/
theorem Course.ofMappings [Stack] {P : Nat → Item → Registry → Prop} {task : Task}
    {o : Outcome Unit}
    (h : Course P task r o) (hr : r.Sound) (htask : task.Held r.store) (hm : r.OfMappings) :
    o.2.OfMappings := by
  induction h with
  | limit => exact hm
  | blocked hassign => exact hm.assign hassign
  | unmerged hassign hmerged =>
    exact (hm.assign hassign).merged (assign_leadsTo hr htask hassign).sound hmerged
  | told hassign hmerged _ _ ih =>
    have hstep := assign_leadsTo hr htask hassign
    obtain ⟨hstep', hitem⟩ := merged_leadsTo hstep.sound hmerged
    exact ih hstep'.sound (hitem _ rfl) ((hm.assign hassign).merged hstep.sound hmerged)
  | nobody => exact hm
  | @failed r r₁ item name fault rest _ ih =>
    exact ih (note_leadsTo hr name item).sound (hr.actionsOf htask name) hm
  | @next r r₁ item name rest o hfirst _ ih ih' =>
    have hnote := note_leadsTo hr name item
    have hstep := hnote.trans (hfirst.leadsTo hnote.sound (hr.actionsOf htask name))
    exact ih' hstep.sound (Store.Holds.mono hstep.size_le htask)
      (ih hnote.sound (hr.actionsOf htask name) hm)
  | nothing => exact hm
  | fail => exact hm
  | @edit r name action rest o _ _ ih =>
    obtain ⟨-, hrest⟩ := List.forall_mem_cons.mp htask
    have hstep := edit_leadsTo hr action
    exact ih hstep.sound (fun a ha => (hrest a ha).mono hstep.size_le) (hm.edit action)
  | stopped rest _ ih => exact ih hr (List.forall_mem_cons.mp htask).1 hm
  | changed hfirst _ ih ih' =>
    obtain ⟨hheld, hrest⟩ := List.forall_mem_cons.mp htask
    have hstep := hfirst.leadsTo hr hheld
    exact ih' hstep.sound (fun a ha => (hrest a ha).mono hstep.size_le) (ih hr hheld hm)

theorem OfMappings.set [Stack] (h : r.OfMappings) (hr : r.Sound) (hv : r.store.Holds value)
    (n : Nat) (path : List String) (source : Source) : (r.set n path value source).2.OfMappings :=
  (course_set r n path value source).ofMappings hr hv h

theorem OfMappings.loadFile (h : r.OfMappings) (hr : r.Sound) (n : Nat) (f : Files)
    (path : String) (source : Source) : (r.loadFile n f path source).2.OfMappings := by
  unfold Registry.loadFile
  split
  · rename_i hload
    obtain ⟨hkeeps, hl⟩ := (h.layers n).loadFile hr.store hload
    exact h.setLayers hkeeps hl
  · exact h

theorem OfMappings.loadCopy (h : r.OfMappings) (hr : r.Sound)
    (hv : (r.store.entries? value).isSome = true) (n : Nat) (source : Source) :
    (r.loadCopy n value source).OfMappings := by
  have hkeeps := (Store.growsTo_copy r.store value).keepsMappings
  exact h.setLayers hkeeps
    (((h.layers n).mono hkeeps).update (Store.isSome_entries?_copy hr.store hv))

theorem OfMappings.clear (h : r.OfMappings) (n : Nat) (source : Option Source) :
    (r.clear n source).OfMappings := by
  refine h.update fun c hc => ?_
  cases source with
  | some source => exact (h c hc).clear
  | none => exact (h c hc).clearAll

theorem areMappings_newLayers {f : Files} {file : Option String}
    {environment : Option Environment} {outcome : Except SettingFault Layers} (hs : s.Sound)
    (h : newLayers f file environment s = (outcome, t)) :
    s.KeepsMappings t ∧ ∀ l, outcome = .ok l → l.AreMappings t := by
  have hkeeps : s.KeepsMappings (Layers.initial s).2 :=
    (Store.place_addsTo s Setting.defaults Layers.proper_defaults).1.growsTo.keepsMappings
  have hinitial := Layers.areMappings_initial s
  have hboth := newLayers_preserve (I := s.KeepsMappings)
    (J := fun l u => s.KeepsMappings u ∧ l.AreMappings u) h (fun _ _ hl => hl.1)
    ⟨hkeeps, hinitial⟩ ?_ ?_
  · exact ⟨hboth.1, fun l heq => (hboth.2 l heq).2⟩
  · intro path l u hloaded
    obtain ⟨hstep, hl⟩ := hinitial.loadFile (Layers.initial_sound hs).1.sound hloaded
    exact ⟨hkeeps.trans hstep, hl⟩
  · rintro e l u loaded v - ⟨hkeeps, hl⟩ hload
    obtain ⟨hstep, hl'⟩ := hl.load hload
    exact ⟨hkeeps.trans hstep, fun l' heq => ⟨hkeeps.trans hstep, hl' l' heq⟩⟩

theorem OfMappings.add (h : r.OfMappings) (hr : r.Sound) (f : Files) (file : Option String)
    (environment : Option Environment) : (r.add f file environment).2.OfMappings := by
  unfold Registry.add
  split
  · rename_i l s hnew
    obtain ⟨hkeeps, hl⟩ := areMappings_newLayers hr.store hnew
    exact List.forall_mem_append.mpr
      ⟨h.withStore hkeeps, List.forall_mem_singleton.mpr (hl l rfl)⟩
  · rename_i fault s hnew
    exact h.withStore (areMappings_newLayers hr.store hnew).1

theorem OfMappings.globalSettings (h : r.OfMappings) (hr : r.Sound) (f : Files)
    (file : Option String) (environment : Environment) :
    (r.globalSettings f file environment).2.OfMappings := by
  rcases r.globalSettings_cases f file environment with heq | ⟨g, heq⟩ <;> rw [heq]
  · exact h
  · exact h.add hr f file (some environment)

theorem OfMappings.introduce (h : r.OfMappings) (name : String) (reaction : Reaction) :
    (r.introduce name reaction).OfMappings := by
  unfold Registry.introduce
  split <;> exact h

/-! ### What a program does -/

/-- What a program does next: it makes an object or changes one that it has, or operates on
settings, with any outcome.  What it loads a copy of is of some kind. -/
inductive Step [Stack] (Loadable : Store → Item → Prop) : Registry → Registry → Prop
  | new {r : Registry} {c : Cell} : r.store.Fits c →
      Step Loadable r { r with store := (r.store.add c).2 }
  | mark {r : Registry} (m : Nat) :
      Step Loadable r { r with store := { r.store with nextMark := m } }
  | mutate {r : Registry} {i value : Item} {path : List Value} {s : Store} : r.store.Holds value →
      r.store.setAt i value path = .ok s → Step Loadable r { r with store := s }
  | add {r : Registry} (f : Files) (file : Option String) (environment : Option Environment) :
      Step Loadable r (r.add f file environment).2
  | globalSettings {r : Registry} (f : Files) (file : Option String) (environment : Environment) :
      Step Loadable r (r.globalSettings f file environment).2
  | setGlobal {r : Registry} (n : Nat) : Step Loadable r { r with global := some n }
  | loadFile {r : Registry} (n : Nat) (f : Files) (path : String) (source : Source) :
      Step Loadable r (r.loadFile n f path source).2
  | loadCopy {r : Registry} (n : Nat) {value : Item} (source : Source) : r.store.Holds value →
      Loadable r.store value → Step Loadable r (r.loadCopy n value source)
  | set {r : Registry} (n : Nat) (path : List String) {value : Item} (source : Source) :
      r.store.Holds value → Step Loadable r (r.set n path value source).2
  | clear {r : Registry} (n : Nat) (source : Option Source) : Step Loadable r (r.clear n source)
  | merged {r : Registry} (n : Nat) : Step Loadable r (r.merged n).2
  | introduce {r : Registry} (name : String) {reaction : Reaction} : reaction.Held r.store →
      Step Loadable r (r.introduce name reaction)
  | addWatcher {r : Registry} (n : Nat) (name : String) :
      Step Loadable r (r.update n (·.addWatcher name))
  | removeWatcher {r : Registry} (n : Nat) (name : String) :
      Step Loadable r (r.update n (·.removeWatcher name))

/-- A registry that a program gets to, where copies of some kind are loaded. -/
abbrev Reached [Stack] (Loadable : Store → Item → Prop) : Registry → Prop :=
  Relation.ReflTransGen (Step Loadable) empty

/-- What a program loads from a mapping. -/
def IsMapping (s : Store) (i : Item) : Prop := (s.entries? i).isSome = true

variable {Loadable : Store → Item → Prop}

theorem Reachable.step [Stack] (h : r.Reachable) (hstep : Step Loadable r q) : q.Reachable := by
  cases hstep with
  | new hc => exact h.new hc
  | mark m => exact h.mark
  | mutate hv hset => exact h.mutate hv hset
  | add f file environment => exact h.add f file environment
  | globalSettings f file environment => exact h.globalSettings f file environment
  | setGlobal n => exact h.setGlobal n
  | loadFile n f path source => exact h.loadFile n f path source
  | loadCopy n source hv _ => exact h.loadCopy n source hv
  | set n path source hv => exact h.set n path source hv
  | clear n source => exact h.clear n source
  | merged n => exact h.merged n
  | introduce name hreaction => exact h.introduce name hreaction
  | addWatcher n name => exact h.addWatcher n name
  | removeWatcher n name => exact h.removeWatcher n name

theorem reachable_of_reached [Stack] (h : Reached Loadable r) : r.Reachable := by
  induction h with
  | refl => exact .empty
  | tail _ hstep ih => exact ih.step hstep

/-- A step keeps layers mappings, if it loads a mapping or nothing. -/
theorem OfMappings.step [Stack] (h : r.OfMappings) (hr : r.Sound) (hstep : Step IsMapping r q) :
    q.OfMappings := by
  cases hstep with
  | new hc => exact h.withStore (Store.growsTo_add _ _).keepsMappings
  | mark m => exact h.withStore fun i hi => hi
  | mutate hv hset => exact h.withStore (Store.keepsMappings_setAt hset)
  | add f file environment => exact h.add hr f file environment
  | globalSettings f file environment => exact h.globalSettings hr f file environment
  | setGlobal n => exact h
  | loadFile n f path source => exact h.loadFile hr n f path source
  | loadCopy n source _ hmapping => exact h.loadCopy hr hmapping n source
  | set n path source hv => exact h.set hr hv n path source
  | clear n source => exact h.clear n source
  | merged n => exact h.merged hr rfl
  | introduce name _ => exact h.introduce name _
  | addWatcher n name => exact h.update fun c hc => h c hc
  | removeWatcher n name => exact h.update fun c hc => h c hc

/-- **All layers are mappings** where only mappings are loaded. -/
theorem ofMappings_of_reached [Stack] (h : Reached IsMapping r) : r.OfMappings := by
  induction h with
  | refl => exact nofun
  | tail hreached hstep ih => exact ih.step (reachable_of_reached hreached).sound hstep

/-! ### Reading all settings merged, and making changes -/

/-- Watchers are told of merged settings one after another, and none of them fails. -/
def NoneRaises (change : Change) (item : Item) : List String → Registry → Prop
  | [], _ => True
  | name :: rest, r => ∃ q,
      performAll change name (r.actionsOf name item) (r.note name item) = (.ok (), q)
        ∧ NoneRaises change item rest q

theorem inform_of_noneRaises {change : Change} {names : List String}
    (h : NoneRaises change item names r) : ∃ q, inform change item names r = (.ok (), q) := by
  induction names generalizing r with
  | nil => exact ⟨r, rfl⟩
  | cons name rest ih =>
    obtain ⟨q, hfirst, hrest⟩ := h
    rw [inform, hfirst]
    exact ih hrest

/-- Some layer of settings nests deeper than merging goes. -/
def NestsTooDeep [Stack] (r : Registry) (n : Nat) : Prop :=
  ∃ source layer, r.layers n source = some layer ∧ ¬ r.store.NestsWithin Stack.mappings layer

theorem merged_or_nestsTooDeep [Stack] (hr : r.Sound) (hm : r.OfMappings) (n : Nat) :
    (∃ item q, r.merged n = (.ok item, q)) ∨
      (∃ q, r.merged n = (.error (.layer .tooDeep), q)) ∧ r.NestsTooDeep n := by
  rcases Layers.merged_or_tooDeep hr.store (hr.layers n) (hm.layers n) with
    ⟨item, t, hmerged⟩ | ⟨⟨t, hmerged⟩, hdeep⟩
  · exact .inl ⟨item, _, merged_eq_ok_iff.mpr ⟨t, hmerged, rfl⟩⟩
  · refine .inr ⟨⟨{ r with store := t }, ?_⟩, hdeep⟩
    unfold Registry.merged
    rw [hmerged]

/-- **Reading all settings merged fails for depth alone, and so does a change that can be made**,
in every registry that a program gets to that loads mappings only.  All layers are mappings
there; merging them ends well, or a layer nests deeper than merging goes; and so does a
change that has been put under its key, where no watcher fails who is told of it. -/
theorem merged_or_tooDeep_of_reached [Stack] (h : Reached IsMapping r) :
    (∀ n, r.HasMappings n)
      ∧ (∀ n, (∃ item q, r.merged n = (.ok item, q)) ∨
          (∃ q, r.merged n = (.error (.layer .tooDeep), q)) ∧ r.NestsTooDeep n)
      ∧ ∀ (n : Nat) (key : String) (value : Item) (source : Source) (r₁ : Registry),
          r.store.Holds value →
          r.assign n (Setting.keyParts key) value source = (.ok (), r₁) →
          (∀ item q, r₁.merged n = (.ok item, q) →
            NoneRaises (setTo Stack.rounds) item (q.watchers n) q) →
          (∃ q, r.set n (Setting.keyParts key) value source = (.ok (), q)) ∨
            (∃ q, r.set n (Setting.keyParts key) value source = (.error (.layer .tooDeep), q))
              ∧ r₁.NestsTooDeep n := by
  have hr := (reachable_of_reached h).sound
  have hm := ofMappings_of_reached h
  refine ⟨hm.layers, merged_or_nestsTooDeep hr hm, ?_⟩
  intro n key value source r₁ hv hassign hnone
  rw [set_eq_announce hassign]
  unfold announce
  rcases merged_or_nestsTooDeep (assign_leadsTo hr hv hassign).sound (hm.assign hassign) n with
    ⟨item, q, hmerged⟩ | ⟨⟨q, hmerged⟩, hdeep⟩
  · rw [hmerged]
    exact .inl (inform_of_noneRaises (hnone item q hmerged))
  · rw [hmerged]
    exact .inr ⟨⟨q, rfl⟩, hdeep⟩

/-- New settings. -/
def fresh : Registry := (empty.add .empty none none).2

open scoped Stack in
theorem reached_fresh : Reached Loadable fresh := .single (.add _ _ _)

/-- New settings over which an empty mapping has been loaded. -/
def loadedOnce : Registry :=
  let (x, s) := fresh.store.add (.mapping [])
  { fresh with store := s }.loadCopy 0 x .file

open scoped Stack in
theorem reached_loadedOnce : Reached IsMapping loadedOnce :=
  (reached_fresh.tail (.new Store.fits_mapping_nil)).tail (.loadCopy 0 .file Store.holds_add rfl)

open scoped Stack in
/-- They are merged, and take a change. -/
theorem merged_or_tooDeep_of_reached_loadedOnce :
    Reached IsMapping loadedOnce ∧ (∃ item q, loadedOnce.merged 0 = (.ok item, q))
      ∧ ∃ q, loadedOnce.set 0 (Setting.keyParts "a") (.scalar (.integer 1)) .runtime
        = (.ok (), q) := by
  have hassign : loadedOnce.assign 0 (Setting.keyParts "a") (.scalar (.integer 1)) .runtime
      = (.ok (), (loadedOnce.assign 0 (Setting.keyParts "a") (.scalar (.integer 1)) .runtime).2) :=
    Prod.ext (by decide +kernel) rfl
  have hmerged : (loadedOnce.merged 0).1.isOk = true := by decide +kernel
  have hset : (loadedOnce.set 0 (Setting.keyParts "a") (.scalar (.integer 1)) .runtime).1
      = .ok () := by decide +kernel
  have hrow : loadedOnce.watchers 0 = [] := by decide +kernel
  obtain ⟨-, hall, hchange⟩ := merged_or_tooDeep_of_reached reached_loadedOnce
  have hone := hchange 0 "a" (.scalar (.integer 1)) .runtime _ trivial hassign fun item q hq => by
    rw [(sameWatchers_merged hq).watchers, (sameWatchers_assign hassign).watchers, hrow]
    trivial
  refine ⟨reached_loadedOnce, (hall 0).resolve_right ?_, hone.resolve_right ?_⟩
  · rintro ⟨⟨q, hdeep⟩, -⟩
    rw [hdeep] at hmerged
    cases hmerged
  · rintro ⟨⟨q, hdeep⟩, -⟩
    rw [hdeep] at hset
    cases hset

/-- New settings and an object that has been put into itself. -/
def knotted : Item × Registry :=
  let (x, s) := fresh.store.add (.mapping [])
  match s.setAt x x [.text "x"] with
  | .ok s => (x, { fresh with store := s })
  | .error _ => (x, fresh)

open scoped Stack in
theorem reached_knotted : Reached Loadable knotted.2 := by
  have hadded : Reached Loadable { fresh with store := (fresh.store.add (.mapping [])).2 } :=
    reached_fresh.tail (.new Store.fits_mapping_nil)
  unfold knotted
  dsimp only
  split
  · rename_i s hset
    exact hadded.tail (.mutate Store.holds_add hset)
  · exact reached_fresh

/-- The object has been loaded for two sources. -/
def loadedTwice : Registry :=
    (knotted.2.loadCopy 0 knotted.1 .file).loadCopy 0 knotted.1 .environment

open scoped Stack in
theorem reached_loadedTwice : Reached IsMapping loadedTwice := by
  have hmapping : (knotted.2.store.entries? knotted.1).isSome = true := by decide +kernel
  have hmapping' : ((knotted.2.loadCopy 0 knotted.1 .file).store.entries? knotted.1).isSome
      = true := by decide +kernel
  have hloaded : Reached IsMapping (knotted.2.loadCopy 0 knotted.1 .file) := reached_knotted.tail
    (.loadCopy 0 .file (Store.holds_of_isSome_entries? hmapping) hmapping)
  exact hloaded.tail
    (.loadCopy 0 .environment (Store.holds_of_isSome_entries? hmapping') hmapping')

open scoped Stack in
/-- **Layers are not always mappings, and mappings do not always merge.**  A text can be loaded
in place of a mapping, and a mapping that contains itself can be loaded for two sources. -/
theorem not_merged_of_reached :
    (¬∀ r n, Reached (fun _ _ => True) r → r.HasMappings n)
      ∧ ¬∀ r n, Reached IsMapping r → ∃ item q, r.merged n = (.ok item, q) := by
  constructor
  · intro hall
    have htext : Reached (fun _ _ => True) (fresh.loadCopy 0 (.scalar (.text "x")) .file) :=
      reached_fresh.tail (.loadCopy 0 .file trivial trivial)
    have hnone := hall _ 0 htext .file (.scalar (.text "x")) rfl
    cases hnone
  · intro hall
    obtain ⟨item, q, hmerged⟩ := hall _ 0 reached_loadedTwice
    have hdeep : (loadedTwice.merged 0).1.isOk = false := by decide +kernel
    rw [hmerged] at hdeep
    cases hdeep

end Registry

end Winnow
