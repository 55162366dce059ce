/-
Winnow/Proofs/Settings/Secluded.lean

Objects that no settings get hold of.

Objects are secluded when they refer to one another only, and nothing else refers to them,
no other object and no layer (`Secluded`).  Then all other cells can be paired with
themselves, and the pairing is good for all cells that come (`Pairing.besides`).  So
whatever looks at layers, and at nothing else, leaves secluded objects as they are and leaves
them secluded (`Spares`).

A copy may be one of secluded objects: it refers to new cells only (`Twins.copy_self`).  A
change is followed through its course, with all that watchers make of it, by induction; what
they set are scalars, so that they hand over nothing (`Course.spares`).
-/
import Winnow.Proofs.Settings.Histories

namespace Winnow

open Store (Alongside Twins LeadsTo)

/-! ### Objects by their addresses -/

/-- An item is a scalar, or one of the objects at some addresses. -/
def Item.Among (own : Nat → Prop) : Item → Prop
  | .scalar _ => True
  | .object a => own a

/-- Every cell is paired with itself, but for those at some addresses. -/
def Pairing.besides (own : Nat → Prop) : Pairing := fun a b => a = b ∧ ¬ own a

variable {P : Pairing} {own : Nat → Prop} {i : Item} {c : Cell} {s t : Store}

theorem Item.Among.paired (h : i.Among fun a => ¬ own a) :
    Item.Paired (.besides own) i i := by
  cases i with
  | scalar x => exact .scalar x
  | object a => exact .object ⟨rfl, h⟩

theorem Item.Paired.among (h : Item.Paired (.besides own) i i) : i.Among fun a => ¬ own a := by
  cases h with
  | scalar x => trivial
  | object hab => exact hab.2

/-- What is said of the addresses in an item may be changed for what follows from it. -/
theorem Item.Among.mono {p p' : Nat → Prop} (h : i.Among p) (hi : s.Holds i)
    (hpp' : ∀ a < s.size, p a → p' a) : i.Among p' := by
  cases i with
  | scalar x => trivial
  | object a => exact hpp' a hi h

theorem Store.Fits.among {p p' : Nat → Prop} (hc : s.Fits c) (h : ∀ i ∈ c.items, i.Among p)
    (hpp' : ∀ a < s.size, p a → p' a) : ∀ i ∈ c.items, i.Among p' :=
  fun i hi => (h i hi).mono (hc.holds i hi) hpp'

theorem Cell.paired_self (h : ∀ i ∈ c.items, Item.Paired P i i) : Cell.Paired P c c := by
  refine (Cell.paired_refl (P := Eq) (fun _ => rfl) c).mono ?_
  rintro i hi _ (_ | rfl)
  · exact .scalar _
  · exact h _ hi

namespace Store

/-- What refers to other objects only is paired with itself. -/
theorem twins_besides (hown : ∀ a, own a → a < s.size)
    (hothers : ∀ a c, ¬ own a → s.cell? a = some c → ∀ i ∈ c.items, i.Among fun a => ¬ own a) :
    Twins (.besides own) s s := by
  refine ⟨fun h k => h.1.symm.trans k.1, fun h k => h.1.trans k.1.symm, fun k => ⟨rfl, fun h => ?_⟩,
    ?_⟩
  · exact absurd (hown _ h) (Nat.not_lt.mpr (Nat.le_add_right _ _))
  · rintro a _ ⟨rfl, ha⟩
    cases hc : s.cell? a with
    | none => exact .none
    | some c => exact .some (Cell.paired_self fun i hi => (hothers a c ha hc i hi).paired)

theorem Twins.lt_of_own (h : Twins (.besides own) s s) {a : Nat} (ha : own a) : a < s.size := by
  refine Nat.lt_of_not_le fun hle => ?_
  obtain ⟨k, rfl⟩ := Nat.exists_eq_add_of_le hle
  exact (h.aligned k).2 ha

theorem Twins.among_of_cell {a : Nat} (h : Twins (.besides own) s s) (ha : ¬ own a)
    (hc : s.cell? a = some c) : ∀ i ∈ c.items, i.Among fun a => ¬ own a := by
  have hcell := h.cell ⟨rfl, ha⟩
  rw [hc] at hcell
  cases hcell with
  | some hcell =>
    intro i hi
    exact (List.forall₂_same.mp hcell.items i hi).among

end Store

namespace Layers

variable {l : Layers}

theorem paired_besides (h : ∀ source i, l source = some i → i.Among fun a => ¬ own a) :
    Paired (.besides own) l l := by
  intro source
  cases hi : l source with
  | none => exact .none
  | some i => exact .some (h source i hi).paired

theorem Paired.among (h : Paired (.besides own) l l) {source : Source} (hi : l source = some i) :
    i.Among fun a => ¬ own a := by
  have hlayer := h source
  rw [hi] at hlayer
  cases hlayer with
  | some hlayer => exact hlayer.among

end Layers

/-! ### Watchers that set scalars -/

/-- An action sets a scalar, if it sets anything. -/
def Action.IsPlain : Action → Prop
  | .set _ _ value _ => ∃ x, value = .scalar x
  | _ => True

/-- Whatever is told, only scalars are set. -/
def Reaction.IsPlain (reaction : Reaction) : Prop :=
  ∀ turn told, ∀ a ∈ reaction.actions turn told, a.IsPlain

theorem Reaction.isPlain_none : Reaction.none.IsPlain := fun _ _ _ ha => absurd ha List.not_mem_nil

theorem Reaction.IsPlain.held {reaction : Reaction} (h : reaction.IsPlain) (s : Store) :
    reaction.Held s := by
  intro turn told _ _ _ a ha
  have hplain := h turn told a ha
  cases a with
  | set n path value source =>
    obtain ⟨x, rfl⟩ := hplain
    trivial
  | _ => trivial

/-- A task sets scalars only, and other objects than secluded ones. -/
def Task.IsPlain (own : Nat → Prop) (s : Store) : Task → Prop
  | .change _ _ _ value => s.Holds value ∧ value.Among fun a => ¬ own a
  | .round .. => True
  | .actions _ row => ∀ a ∈ row, a.IsPlain

namespace Registry

variable {r r' q : Registry} {n : Nat} {l : Layers} {path : List String} {source : Source}
  {value : Item}

/-! ### Secluded objects -/

/-- The objects at some addresses refer to one another only, and nothing else refers to them, nor
does a watcher. -/
structure Secluded (own : Nat → Prop) (r : Registry) : Prop where
  sound : r.Sound
  twins : Twins (.besides own) r.store r.store
  settings : ∀ c ∈ r.settings, Layers.Paired (.besides own) c.layers c.layers
  plain : ∀ w ∈ r.reactions, w.2.IsPlain
  closed {a : Nat} {c : Cell} : own a → r.store.cell? a = some c → ∀ i ∈ c.items, i.Among own

/-- What has been done has left secluded objects as they were, and they are secluded still. -/
structure Spares (own : Nat → Prop) (r q : Registry) : Prop where
  secluded : q.Secluded own
  size_le : r.store.size ≤ q.store.size
  keeps {a : Nat} : own a → q.store.cell? a = r.store.cell? a

theorem Spares.trans (h : Spares own r r') (k : Spares own r' q) : Spares own r q :=
  ⟨k.secluded, Nat.le_trans h.size_le k.size_le, fun ha => (k.keeps ha).trans (h.keeps ha)⟩

namespace Secluded

theorem refl (h : r.Secluded own) : Spares own r r := ⟨h, Nat.le_refl _, fun _ => rfl⟩

theorem layers (h : r.Secluded own) (n : Nat) :
    Layers.Paired (.besides own) (r.layers n) (r.layers n) := by
  unfold Registry.layers
  cases hc : r.settings[n]? with
  | none => exact Layers.paired_none
  | some c => exact h.settings c (List.mem_of_getElem? hc)

/-- What leaves all alone that has no partner spares secluded objects. -/
theorem spares (h : r.Secluded own) (hq : q.Sound)
    (hstore : Alongside (.besides own) r.store r.store q.store q.store)
    (hsettings : ∀ c ∈ q.settings, Layers.Paired (.besides own) c.layers c.layers)
    (hplain : ∀ w ∈ q.reactions, w.2.IsPlain) : Spares own r q := by
  have hkeeps {a : Nat} (ha : own a) : q.store.cell? a = r.store.cell? a :=
    hstore.keeps a (h.twins.lt_of_own ha) fun b hab => hab.2 ha
  refine ⟨⟨hq, hstore.twins, hsettings, hplain, fun ha hc => ?_⟩, hstore.size_le, hkeeps⟩
  rw [hkeeps ha] at hc
  exact h.closed ha hc

theorem withStore (h : r.Secluded own) (hleads : r.store.LeadsTo s)
    (hstore : Alongside (.besides own) r.store r.store s s) :
    Spares own r { r with store := s } :=
  h.spares (h.sound.withStore hleads) hstore h.settings h.plain

theorem setLayers (h : r.Secluded own) (n : Nat) (hq : (r.setLayers n l s).Sound)
    (hstore : Alongside (.besides own) r.store r.store s s)
    (hl : Layers.Paired (.besides own) l l) : Spares own r (r.setLayers n l s) :=
  h.spares hq hstore (forall_mem_update (r := { r with store := s }) h.settings fun _ _ => hl)
    h.plain

theorem update (h : r.Secluded own) {f : Settings → Settings} (hq : (r.update n f).Sound)
    (hf : ∀ c ∈ r.settings, Layers.Paired (.besides own) (f c).layers (f c).layers) :
    Spares own r (r.update n f) :=
  h.spares hq (.refl h.twins)
    (forall_mem_update h.settings fun c hc => hf c (List.mem_of_getElem? hc)) h.plain

/-! ### Other objects -/

theorem mark (h : r.Secluded own) (m : Nat) :
    Spares own r { r with store := { r.store with nextMark := m } } :=
  h.withStore (Store.mark_leadsTo h.sound.store m) ((Alongside.refl h.twins).mark m m)

theorem new (h : r.Secluded own) (hc : r.store.Fits c)
    (hother : ∀ i ∈ c.items, i.Among fun a => ¬ own a) :
    Spares own r { r with store := (r.store.add c).2 } :=
  h.withStore ((Store.AddsTo.refl.add hc).leadsTo h.sound.store)
    (h.twins.add (Cell.paired_self fun i hi => (hother i hi).paired))

/-- Another object is changed. -/
theorem put (h : r.Secluded own) {a : Nat} (ha : ¬ own a) (hc : r.store.Fits c)
    (hother : ∀ i ∈ c.items, i.Among fun a => ¬ own a) :
    Spares own r { r with store := r.store.put a c } :=
  h.withStore (Store.put_leadsTo h.sound.store hc)
    (h.twins.put ⟨rfl, ha⟩ (Cell.paired_self fun i hi => (hother i hi).paired))

/-! ### Changes of settings -/

theorem assign (h : r.Secluded own) (hv : r.store.Holds value)
    (hother : value.Among fun a => ¬ own a) {outcome : Except SettingFault Unit}
    (hassign : r.assign n path value source = (outcome, q)) : Spares own r q := by
  have hq := (assign_leadsTo h.sound hv hassign).sound
  obtain rfl : (r.assign n path value source).2 = q := congrArg Prod.snd hassign
  obtain ⟨hl, hdone⟩ := (h.layers n).assign h.twins hother.paired source path
  rw [assign_snd] at hq ⊢
  exact h.setLayers n hq hdone hl

theorem merged [Stack] (h : r.Secluded own) {outcome : Except SettingFault Item}
    (hmerged : r.merged n = (outcome, q)) : Spares own r q := by
  have hq := (merged_leadsTo h.sound hmerged).1.sound
  obtain ⟨-, hdone⟩ := (h.layers n).merged h.twins
  unfold Registry.merged at hmerged
  split at hmerged <;>
  · rename_i heq
    rw [heq] at hdone
    cases hmerged
    exact h.spares hq hdone h.settings h.plain

theorem edit (h : r.Secluded own) (action : Action) : Spares own r (r.edit action) := by
  have hq := (edit_leadsTo h.sound action).sound
  cases action with
  | dismiss n other => exact h.update hq fun c hc => h.settings c hc
  | invite n other => exact h.update hq fun c hc => h.settings c hc
  | _ => exact h.refl

theorem note (h : r.Secluded own) (name : String) (item : Item) :
    Spares own r (r.note name item) :=
  h.spares (note_leadsTo h.sound name item).sound (.refl h.twins) h.settings h.plain

/-- Watchers set scalars only. -/
theorem actionsOf (h : r.Secluded own) (name : String) (item : Item) :
    ∀ a ∈ r.actionsOf name item, a.IsPlain := by
  rcases r.reaction_eq_none_or_mem name with hnone | hmem
  · unfold Registry.actionsOf
    rw [hnone]
    exact Reaction.isPlain_none _ _
  · exact h.plain _ hmem _ _

end Secluded

/-- **A change spares secluded objects**, with all that watchers make of it. -/
theorem Course.spares [Stack] {Q : Nat → Item → Registry → Prop} {task : Task} {o : Outcome Unit}
    (hcourse : Course Q task r o) (h : r.Secluded own) (htask : task.IsPlain own r.store) :
    Spares own r o.2 := by
  induction hcourse with
  | limit => exact h.refl
  | blocked hassign => exact h.assign htask.1 htask.2 hassign
  | unmerged hassign hmerged =>
    have hstep := h.assign htask.1 htask.2 hassign
    exact hstep.trans (hstep.secluded.merged hmerged)
  | told hassign hmerged _ _ ih =>
    have hstep := h.assign htask.1 htask.2 hassign
    have hstep' := hstep.trans (hstep.secluded.merged hmerged)
    exact hstep'.trans (ih hstep'.secluded trivial)
  | nobody => exact h.refl
  | @failed r r₁ item name fault rest _ ih =>
    have hnote := h.note name item
    exact hnote.trans (ih hnote.secluded (h.actionsOf _ _))
  | @next r r₁ item name rest o _ _ ih ih' =>
    have hnote := h.note name item
    have hstep := hnote.trans (ih hnote.secluded (h.actionsOf _ _))
    exact hstep.trans (ih' hstep.secluded trivial)
  | nothing => exact h.refl
  | fail => exact h.refl
  | @edit r name action rest o _ _ ih =>
    have hstep := h.edit action
    exact hstep.trans (ih hstep.secluded (List.forall_mem_cons.mp htask).2)
  | stopped rest _ ih =>
    obtain ⟨⟨x, rfl⟩, -⟩ := List.forall_mem_cons.mp htask
    exact ih h ⟨trivial, trivial⟩
  | changed _ _ ih ih' =>
    obtain ⟨⟨x, rfl⟩, hrest⟩ := List.forall_mem_cons.mp htask
    have hstep := ih h ⟨trivial, trivial⟩
    exact hstep.trans (ih' hstep.secluded hrest)

namespace Secluded

theorem set [Stack] (h : r.Secluded own) (hv : r.store.Holds value)
    (hother : value.Among fun a => ¬ own a) (n : Nat) (path : List String) (source : Source) :
    Spares own r (r.set n path value source).2 :=
  (course_set r n path value source).spares h ⟨hv, hother⟩

theorem clear (h : r.Secluded own) (n : Nat) (source : Option Source) :
    Spares own r (r.clear n source) := by
  refine h.update (clear_sound h.sound n source) fun c hc => ?_
  cases source with
  | some source => exact (h.settings c hc).clear source
  | none => exact (h.settings c hc).clearAll

/-! ### Loading -/

/-- **A copy**, also one of secluded objects. -/
theorem loadCopy (h : r.Secluded own) (hv : r.store.Holds value) (n : Nat) (source : Source) :
    Spares own r (r.loadCopy n value source) := by
  obtain ⟨hcopy, hdone⟩ := h.twins.copy_self value
  exact h.setLayers n (loadCopy_sound h.sound hv n source) hdone
    ((h.layers n).update (.some hcopy) source)

end Secluded

/-- A file that has been read refers to new objects only. -/
theorem paired_of_readFile {f : Files} {file : String} {i : Item} (h : Twins P s s)
    (hread : Setting.readFile f file s = .ok (i, t)) :
    Item.Paired P i i ∧ Alongside P s s t t := by
  have hboth := readFile_alike h rfl f file
  rw [hread] at hboth
  cases hboth with
  | ok hboth => exact hboth

theorem paired_of_loadFile {f : Files} {file : String} {l l' : Layers} (h : Twins P s s)
    (hl : Layers.Paired P l l) (hload : l.loadFile f file source s = .ok (l', t)) :
    Layers.Paired P l' l' ∧ Alongside P s s t t := by
  obtain ⟨⟨i, u⟩, hread, heq⟩ := except_bind_eq_ok_iff.mp hload
  cases heq
  obtain ⟨hi, hdone⟩ := paired_of_readFile h hread
  exact ⟨hl.update (.some hi) source, hdone⟩

theorem Secluded.loadFile (h : r.Secluded own) (n : Nat) (f : Files) (file : String)
    (source : Source) : Spares own r (r.loadFile n f file source).2 := by
  have hq := loadFile_sound h.sound n f file source
  unfold Registry.loadFile at hq ⊢
  split at hq <;> rename_i hload
  · obtain ⟨hl, hdone⟩ := paired_of_loadFile h.twins (h.layers n) hload
    exact h.setLayers n hq hdone hl
  · exact h.refl

/-! ### New settings -/

/-- The layers of new settings refer to new objects only. -/
theorem paired_of_newLayers {f : Files} {file : Option String} {environment : Option Environment}
    {outcome : Except SettingFault Layers} (h : Twins P s s)
    (hnew : newLayers f file environment s = (outcome, t)) :
    Alongside P s s t t ∧ ∀ l, outcome = .ok l → Layers.Paired P l l := by
  obtain ⟨hinitial, hdone⟩ := Layers.initial_alike h
  have hboth := newLayers_preserve (I := fun u => Alongside P s s u u)
    (J := fun l u => Layers.Paired P l l ∧ Alongside P s s u u) hnew (fun _ _ hl => hl.2)
    ⟨hinitial, hdone⟩ ?_ ?_
  · exact ⟨hboth.1, fun l hl => (hboth.2 l hl).1⟩
  · intro path l u hload
    obtain ⟨hl, hstep⟩ := paired_of_loadFile hdone.twins hinitial hload
    exact ⟨hl, hdone.trans hstep⟩
  · rintro e l u loaded v - ⟨hl, hu⟩ hload
    obtain ⟨houtcome, hstep⟩ := Environment.load_alike hu.twins hl e
    rw [hload] at houtcome hstep
    refine ⟨hu.trans hstep, fun l' hl' => ?_⟩
    subst hl'
    cases houtcome with
    | ok hl' => exact ⟨hl', hu.trans hstep⟩

namespace Secluded

theorem add (h : r.Secluded own) (f : Files) (file : Option String)
    (environment : Option Environment) : Spares own r (r.add f file environment).2 := by
  have hq := add_sound h.sound f file environment
  unfold Registry.add at hq ⊢
  split at hq <;> rename_i hnew
  · obtain ⟨hdone, hl⟩ := paired_of_newLayers h.twins hnew
    exact h.spares hq hdone (List.forall_mem_append.mpr ⟨h.settings,
      List.forall_mem_singleton.mpr (hl _ rfl)⟩) h.plain
  · obtain ⟨hdone, -⟩ := paired_of_newLayers h.twins hnew
    exact h.spares hq hdone h.settings h.plain

theorem setGlobal (h : r.Secluded own) (g : Option Nat) : Spares own r { r with global := g } :=
  h.spares ⟨h.sound.store, h.sound.settings, h.sound.reactions⟩ (.refl h.twins) h.settings h.plain

theorem globalSettings (h : r.Secluded own) (f : Files) (file : Option String)
    (environment : Environment) : Spares own r (r.globalSettings f file environment).2 := by
  rcases r.globalSettings_cases f file environment with heq | ⟨g, heq⟩ <;> rw [heq]
  · exact h.refl
  · have hadd := h.add f file (some environment)
    exact hadd.trans (hadd.secluded.setGlobal g)

theorem introduce (h : r.Secluded own) (name : String) {reaction : Reaction}
    (hplain : reaction.IsPlain) : Spares own r (r.introduce name reaction) := by
  have hq := introduce_sound h.sound (hplain.held r.store) name
  unfold Registry.introduce at hq ⊢
  split at hq <;> rename_i hthere
  · rw [if_pos hthere]
    exact h.refl
  · rw [if_neg hthere]
    exact h.spares hq (.refl h.twins) h.settings (List.forall_mem_cons.mpr ⟨hplain, h.plain⟩)

end Secluded

end Registry

end Winnow
