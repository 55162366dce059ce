/-
Winnow/Proofs/Settings/Defaults.lean

The defaults are always there.

Every settings object begins with a layer of defaults, and nothing takes it away.  It
may be changed and replaced, but clearing leaves it as it is.  Whatever watchers make of a
change, they do so by changes of the same kind (`Course.hasDefaults`).
-/
import Winnow.Proofs.Settings.Reachable
import Winnow.Proofs.Settings.Twins

namespace Winnow

namespace Layers

variable {l : Layers} {source : Source}

/-- There is a layer of defaults. -/
def HasDefaults (l : Layers) : Prop := (l .defaults).isSome = true

theorem HasDefaults.update (h : l.HasDefaults) (source : Source) (item : Item) :
    (l.update source (some item)).HasDefaults := by
  unfold HasDefaults Layers.update
  split
  · rfl
  · exact h

theorem HasDefaults.ensure (h : l.HasDefaults) (s : Store) (source : Source) :
    (l.ensure s source).2.1.HasDefaults := by
  unfold Layers.ensure
  split
  · exact h
  · exact h.update source _

theorem clear_defaults (l : Layers) (source : Source) : l.clear source .defaults = l .defaults := by
  unfold Layers.clear
  split
  · rfl
  · rename_i hne
    exact if_neg (Ne.symm hne)

theorem clearAll_defaults (l : Layers) : l.clearAll .defaults = l .defaults := if_pos rfl

theorem HasDefaults.clear (h : l.HasDefaults) (source : Source) : (l.clear source).HasDefaults := by
  unfold HasDefaults
  rw [clear_defaults]
  exact h

theorem HasDefaults.clearAll (h : l.HasDefaults) : l.clearAll.HasDefaults := by
  unfold HasDefaults
  rw [clearAll_defaults]
  exact h

theorem HasDefaults.load (h : l.HasDefaults) {e : Environment} {l' : Layers} {s t : Store}
    (hload : e.load l s = (.ok l', t)) : l'.HasDefaults := by
  unfold Environment.load at hload
  dsimp only at hload
  split at hload
  · cases hload
    exact h
  · split at hload
    · cases hload
    · cases hload
      exact h.update .environment _

end Layers

namespace Registry

variable {r q : Registry} {n : Nat} {value : Item} {path : List String} {source : Source}
  {l : Layers} {s t : Store}

/-- All settings have a layer of defaults. -/
def HasDefaults (r : Registry) : Prop := ∀ c ∈ r.settings, c.layers.HasDefaults

theorem HasDefaults.layers (h : r.HasDefaults) (hn : n < r.settings.length) :
    (r.layers n).HasDefaults := by
  unfold Registry.layers
  rw [List.getElem?_eq_getElem hn]
  exact h _ (List.getElem_mem hn)

theorem HasDefaults.update (h : r.HasDefaults) {f : Settings → Settings}
    (hf : ∀ c, r.settings[n]? = some c → (f c).layers.HasDefaults) :
    (r.update n f).HasDefaults := forall_mem_update h hf

theorem HasDefaults.setLayers (h : r.HasDefaults)
    (hl : (r.layers n).HasDefaults → l.HasDefaults) (s : Store) :
    (r.setLayers n l s).HasDefaults :=
  h.update (f := fun c => { c with layers := l }) fun _ hc =>
    hl (h.layers (List.getElem?_eq_some_iff.mp hc).1)

theorem HasDefaults.assign {outcome : Except SettingFault Unit} (h : r.HasDefaults)
    (hassign : r.assign n path value source = (outcome, q)) : q.HasDefaults := by
  obtain rfl : (r.assign n path value source).2 = q := congrArg Prod.snd hassign
  rw [assign_snd]
  exact h.setLayers (fun hl => hl.ensure _ source) _

theorem HasDefaults.merged [Stack] {outcome : Except SettingFault Item} (h : r.HasDefaults)
    (hmerged : r.merged n = (outcome, q)) : q.HasDefaults := by
  obtain rfl : (r.merged n).2 = q := congrArg Prod.snd hmerged
  unfold Registry.merged
  split <;> exact h

theorem HasDefaults.edit (h : r.HasDefaults) (action : Action) : (r.edit action).HasDefaults := by
  cases action with
  | dismiss n other => exact h.update fun c hc => h c (List.mem_of_getElem? hc)
  | invite n other => exact h.update fun c hc => h c (List.mem_of_getElem? hc)
  | _ => exact h

/-- Whatever comes of a change, the defaults stay. -/
theorem Course.hasDefaults [Stack] {P : Nat → Item → Registry → Prop} {task : Task}
    {o : Outcome Unit} (hcourse : Course P task r o) (h : r.HasDefaults) : o.2.HasDefaults := by
  induction hcourse with
  | limit => exact h
  | blocked hassign => exact h.assign hassign
  | unmerged hassign hmerged => exact (h.assign hassign).merged hmerged
  | told hassign hmerged _ _ ih => exact ih ((h.assign hassign).merged hmerged)
  | nobody => exact h
  | failed _ _ ih => exact ih h
  | next _ _ ih ih' => exact ih' (ih h)
  | nothing => exact h
  | fail => exact h
  | @edit r name action rest o _ _ ih => exact ih (h.edit action)
  | stopped _ _ ih => exact ih h
  | changed _ _ ih ih' => exact ih' (ih h)

theorem HasDefaults.loadFile (h : r.HasDefaults) (n : Nat) (f : Files) (path : String)
    (source : Source) : (r.loadFile n f path source).2.HasDefaults := by
  unfold Registry.loadFile
  split
  · rename_i l s hload
    obtain ⟨⟨item, u⟩, -, heq⟩ := except_bind_eq_ok_iff.mp hload
    cases heq
    exact h.setLayers (fun hl => hl.update source item) _
  · exact h

theorem HasDefaults.clear (h : r.HasDefaults) (n : Nat) (source : Option Source) :
    (r.clear n source).HasDefaults := by
  refine h.update fun c hc => ?_
  cases source with
  | some source => exact (h c (List.mem_of_getElem? hc)).clear source
  | none => exact (h c (List.mem_of_getElem? hc)).clearAll

theorem hasDefaults_newLayers {f : Files} {file : Option String}
    {environment : Option Environment} (h : newLayers f file environment s = (.ok l, t)) :
    l.HasDefaults := by
  have hinitial : (Layers.initial s).1.HasDefaults := rfl
  refine (newLayers_preserve (I := fun _ => True) (J := fun l _ => l.HasDefaults) h
    (fun _ _ _ => trivial) hinitial ?_ ?_).2 l rfl
  · intro path l u hloaded
    obtain ⟨⟨item, v⟩, -, heq⟩ := except_bind_eq_ok_iff.mp hloaded
    cases heq
    exact hinitial.update .file item
  · intro e l u loaded v _ hl hload
    refine ⟨trivial, fun l' heq => ?_⟩
    subst heq
    exact hl.load hload

theorem HasDefaults.add (h : r.HasDefaults) (f : Files) (file : Option String)
    (environment : Option Environment) : (r.add f file environment).2.HasDefaults := by
  unfold Registry.add
  split
  · rename_i l s hnew
    exact List.forall_mem_append.mpr
      ⟨h, List.forall_mem_singleton.mpr (hasDefaults_newLayers hnew)⟩
  · exact h

/-- **There are defaults in every registry that a program reaches.** -/
theorem Reachable.hasDefaults [Stack] (h : r.Reachable) : r.HasDefaults := by
  induction h with
  | empty => exact nofun
  | new _ _ ih => exact ih
  | mark _ ih => exact ih
  | mutate _ _ _ ih => exact ih
  | add f file environment _ ih => exact ih.add f file environment
  | @globalSettings r f file environment _ ih =>
    rcases r.globalSettings_cases f file environment with heq | ⟨g, heq⟩ <;> rw [heq]
    · exact ih
    · exact ih.add f file (some environment)
  | setGlobal n _ ih => exact ih
  | loadFile n f path source _ ih => exact ih.loadFile n f path source
  | loadCopy n source _ _ ih => exact ih.setLayers (fun hl => hl.update source _) _
  | set n path source _ _ ih => exact (course_set _ n path _ source).hasDefaults ih
  | clear n source _ ih => exact ih.clear n source
  | merged n _ ih => exact ih.merged rfl
  | introduce name _ _ ih =>
    unfold Registry.introduce
    split <;> exact ih
  | addWatcher n name _ ih => exact ih.update fun c hc => ih c (List.mem_of_getElem? hc)
  | removeWatcher n name _ ih => exact ih.update fun c hc => ih c (List.mem_of_getElem? hc)

end Registry

end Winnow
