/-
Winnow/Proofs/Settings/Keeping.lean

What is loaded from somebody stays theirs.

A caller keeps objects to itself: it makes them and changes them, of its own objects and of
scalars (`Keeping.Alters`).  All else goes on meanwhile, with any settings, which get copies
of these objects, but never one of them itself (`Registry.Operates`).  The objects are
secluded when they are made (`Keeping.secluded_made`), and stay so, whoever takes
the next step (`Keeping.Proceeds.secluded`).

So neither sees what the other does.  What the caller changes is no object of a layer,
so all that is read stays the same (`Keeping.Leaves.readsLike`); and what is done to the
settings leaves alone all that they have no object of (`Registry.Secluded.operates`).

The defaults themselves may be such an object, of which all settings begin with a copy.  No
change of settings is a change of it, and a copy of a copy is as good as the first, so new
settings always begin with the same (`Keeping.readsLike_addCopy_defaults`).
-/
import Winnow.Proofs.Settings.GivenOut
import Winnow.Proofs.Settings.Secluded
import Winnow.Proofs.Store.Copies

namespace Winnow

open Relation (ReflTransGen)

variable {own : Nat → Prop} {s : Store}

namespace Registry

variable {r q : Registry}

/-! ### What is done to settings -/

/-- What a program does that loads copies of the objects at some addresses, and hands over none
of them in any other way.  Watchers set scalars only. -/
inductive Operates [Stack] (own : Nat → Prop) : Registry → Registry → Prop
  /-- Makes a new object of other objects. -/
  | new {r : Registry} {c : Cell} : r.store.Fits c → (∀ i ∈ c.items, i.Among fun a => ¬ own a) →
      Operates own r { r with store := (r.store.add c).2 }
  /-- Makes a float that is no number. -/
  | mark {r : Registry} (m : Nat) :
      Operates own r { r with store := { r.store with nextMark := m } }
  /-- Changes another object, which may be one of settings. -/
  | put {r : Registry} {a : Nat} {c : Cell} : ¬ own a → r.store.Fits c →
      (∀ i ∈ c.items, i.Among fun a => ¬ own a) → Operates own r { r with store := r.store.put a c }
  | add {r : Registry} (f : Files) (file : Option String) (environment : Option Environment) :
      Operates own r (r.add f file environment).2
  | globalSettings {r : Registry} (f : Files) (file : Option String) (environment : Environment) :
      Operates own r (r.globalSettings f file environment).2
  | setGlobal {r : Registry} (n : Nat) : Operates own r { r with global := some n }
  | loadFile {r : Registry} (n : Nat) (f : Files) (path : String) (source : Source) :
      Operates own r (r.loadFile n f path source).2
  /-- Loads a copy of anything. -/
  | loadCopy {r : Registry} (n : Nat) {value : Item} (source : Source) : r.store.Holds value →
      Operates own r (r.loadCopy n value source)
  | set {r : Registry} (n : Nat) (path : List String) {value : Item} (source : Source) :
      r.store.Holds value → (value.Among fun a => ¬ own a) →
      Operates own r (r.set n path value source).2
  | clear {r : Registry} (n : Nat) (source : Option Source) : Operates own r (r.clear n source)
  | merged {r : Registry} (n : Nat) : Operates own r (r.merged n).2
  | introduce {r : Registry} (name : String) {reaction : Reaction} : reaction.IsPlain →
      Operates own r (r.introduce name reaction)
  | addWatcher {r : Registry} (n : Nat) (name : String) :
      Operates own r (r.update n (·.addWatcher name))
  | removeWatcher {r : Registry} (n : Nat) (name : String) :
      Operates own r (r.update n (·.removeWatcher name))

/-- Whatever is done to settings spares secluded objects. -/
theorem Secluded.operate [Stack] (h : r.Secluded own) (hstep : Operates own r q) :
    Spares own r q := by
  cases hstep with
  | new hc hother => exact h.new hc hother
  | mark m => exact h.mark m
  | put ha hc hother => exact h.put ha hc hother
  | add f file environment => exact h.add f file environment
  | globalSettings f file environment => exact h.globalSettings f file environment
  | setGlobal n => exact h.setGlobal (some n)
  | loadFile n f path source => exact h.loadFile n f path source
  | loadCopy n source hv => exact h.loadCopy hv n source
  | set n path source hv hother => exact h.set hv hother n path source
  | clear n source => exact h.clear n source
  | merged n => exact h.merged rfl
  | introduce name hplain => exact h.introduce name hplain
  | addWatcher n name => exact h.edit (.invite n name)
  | removeWatcher n name => exact h.edit (.dismiss n name)

/-- **Whatever is done to settings, one thing after another, spares secluded objects.** -/
theorem Secluded.operates [Stack] (h : r.Secluded own) (hrun : ReflTransGen (Operates own) r q) :
    Spares own r q := by
  induction hrun with
  | refl => exact h.refl
  | tail _ hstep ih => exact ih.trans (ih.secluded.operate hstep)

/-! ### New settings -/

/-- New settings, with a copy of an item in the place of their defaults. -/
def addCopy (r : Registry) (f : Files) (i : Item) : Registry :=
  (r.add f none none).2.loadCopy r.settings.length i .defaults

theorem layers_add (r : Registry) (f : Files) :
    (r.add f none none).2.layers r.settings.length = (Layers.initial r.store).1 :=
  layers_withNew r _ _

theorem layers_addCopy (r : Registry) (f : Files) (i : Item) :
    (r.addCopy f i).layers r.settings.length
      = Layers.none.update .defaults (some ((r.add f none none).2.store.copy i).1) := by
  have hlt : r.settings.length
      < (r.settings ++ [(⟨(Layers.initial r.store).1, []⟩ : Settings)]).length := by
    rw [List.length_append]
    exact Nat.lt_succ_self _
  unfold addCopy Registry.loadCopy
  dsimp only
  rw [layers_setLayers_of_lt (r := (r.add f none none).2) hlt, layers_add]
  funext source
  show (if source = .defaults then _ else if source = .defaults then _ else _) = _
  unfold Layers.update
  split <;> rfl

/-- **New settings read like any others** that are new. -/
theorem readsLike_add [Stack] (r q : Registry) (f g : Files) :
    ReadsLike (r.add f none none).2 r.settings.length (q.add g none none).2 q.settings.length := by
  obtain ⟨hl, hdone⟩ := Layers.initial_alike (Store.twins_new r.store q.store)
  refine readsLike_of_paired hdone.twins ?_
  rw [layers_add, layers_add]
  exact hl

end Registry

/-! ### What a caller does -/

/-- A registry, and the addresses of objects that a caller keeps to itself. -/
structure Keeping where
  own : Nat → Prop
  registry : Registry

namespace Keeping

open Registry (Secluded ReadsLike Operates)

variable {k k' k'' : Keeping} {a : Nat} {r : Registry} {v : Stored}

/-- The store in which the objects are. -/
abbrev store (k : Keeping) : Store := k.registry.store

/-- A caller makes an object or changes one of its own, out of scalars and its own objects. -/
inductive Alters : Keeping → Keeping → Prop
  | make {k : Keeping} {c : Cell} : k.store.Fits c → (∀ i ∈ c.items, i.Among k.own) →
      Alters k ⟨fun a => k.own a ∨ a = k.store.size,
        { k.registry with store := (k.store.add c).2 }⟩
  | change {k : Keeping} {a : Nat} {c : Cell} : k.own a → k.store.Fits c →
      (∀ i ∈ c.items, i.Among k.own) →
      Alters k ⟨k.own, { k.registry with store := k.store.put a c }⟩

/-- The caller does something, or something is done to settings. -/
inductive Proceeds [Stack] : Keeping → Keeping → Prop
  | alter {k k' : Keeping} : Alters k k' → Proceeds k k'
  | operate {k : Keeping} {q : Registry} : Operates k.own k.registry q → Proceeds k ⟨k.own, q⟩

/-- Putting something under a key of an object is to change it. -/
theorem alters_of_setElement {key : Value} {value : Item} (hk : k.registry.Secluded k.own)
    (ha : k.own a) (hvalue : value.Among k.own) (hheld : k.store.Holds value)
    (h : k.store.setElement (.object a) key value = .ok s) :
    Alters k ⟨k.own, { k.registry with store := s }⟩ := by
  have hsound := (Store.setElement_leadsTo hk.sound.store hheld h).sound
  obtain ⟨_, c, d, ⟨⟩, hd, rfl, hitems⟩ := Store.exists_put_of_setElement h
  have hc : (k.store.put a c).Fits c := hsound a c (Store.cell?_put_self hd)
  refine .change ha (hc.mono (Nat.le_of_eq Store.size_put)) fun i hi => ?_
  rcases hitems i hi with rfl | hi
  · exact hvalue
  · exact hk.closed ha hd i hi

/-- What a caller has done has left all alone that is not its own. -/
structure Leaves (k k' : Keeping) : Prop where
  secluded : k'.registry.Secluded k'.own
  registry : k'.registry = { k.registry with store := k'.store }
  size_le : k.store.size ≤ k'.store.size
  own {a : Nat} : a < k.store.size → (k'.own a ↔ k.own a)
  keeps {a : Nat} : a < k.store.size → ¬ k.own a → k'.store.cell? a = k.store.cell? a

theorem Leaves.refl (h : k.registry.Secluded k.own) : Leaves k k :=
  ⟨h, rfl, Nat.le_refl _, fun _ => Iff.rfl, fun _ _ => rfl⟩

theorem Leaves.trans (h : Leaves k k') (h' : Leaves k' k'') : Leaves k k'' := by
  have hlt {a : Nat} (ha : a < k.store.size) : a < k'.store.size :=
    Nat.lt_of_lt_of_le ha h.size_le
  refine ⟨h'.secluded, ?_, Nat.le_trans h.size_le h'.size_le,
    fun ha => (h'.own (hlt ha)).trans (h.own ha), fun ha hother => ?_⟩
  · rw [h'.registry, h.registry]
  · exact (h'.keeps (hlt ha) (mt (h.own ha).mp hother)).trans (h.keeps ha hother)

theorem leaves_make (h : k.registry.Secluded k.own) (hc : k.store.Fits c)
    (hown : ∀ i ∈ c.items, i.Among k.own) :
    Leaves k ⟨fun a => k.own a ∨ a = k.store.size,
      { k.registry with store := (k.store.add c).2 }⟩ := by
  have hleads := (Store.AddsTo.refl.add hc).leadsTo h.sound.store
  have hother (a : Nat) (ha : a < k.store.size) (hne : ¬ k.own a) :
      ¬ (k.own a ∨ a = k.store.size) := fun h => h.elim hne (Nat.ne_of_lt ha)
  refine ⟨⟨h.sound.withStore hleads, Store.twins_besides ?_ ?_, fun d hd => ?_, h.plain, ?_⟩, rfl,
    hleads.size_le, fun ha => or_iff_left (Nat.ne_of_lt ha), fun ha _ =>
      Store.cell?_add_of_ne (Nat.ne_of_lt ha)⟩
  · rintro a (ha | rfl)
    · exact Nat.lt_of_lt_of_le (h.twins.lt_of_own ha) hleads.size_le
    · exact Nat.lt_of_lt_of_eq (Nat.lt_succ_self _) Store.size_add.symm
  · -- what was there before does not refer to the new object
    intro a d ha hd
    rw [not_or] at ha
    rw [Store.cell?_add_of_ne ha.2] at hd
    exact (h.sound.store a d hd).among (h.twins.among_of_cell ha.1 hd) hother
  · exact Layers.paired_besides fun source i hi =>
      ((h.settings d hd).among hi).mono (h.sound.settings d hd source i hi) hother
  · rintro a d (ha | rfl) hd
    · rw [Store.cell?_add_of_ne (Nat.ne_of_lt (h.twins.lt_of_own ha))] at hd
      exact (h.sound.store a d hd).among (h.closed ha hd) fun _ _ => .inl
    · cases Store.cell?_add_self.symm.trans hd
      exact hc.among hown fun _ _ => .inl

theorem leaves_change (h : k.registry.Secluded k.own) (ha : k.own a) (hc : k.store.Fits c)
    (hown : ∀ i ∈ c.items, i.Among k.own) :
    Leaves k ⟨k.own, { k.registry with store := k.store.put a c }⟩ := by
  have hleads := Store.put_leadsTo (a := a) h.sound.store hc
  have hkeeps {b : Nat} (hb : ¬ k.own b) : (k.store.put a c).cell? b = k.store.cell? b := by
    refine Store.cell?_put_of_ne ?_
    rintro rfl
    exact hb ha
  refine ⟨⟨h.sound.withStore hleads, Store.twins_besides ?_ ?_, h.settings, h.plain, ?_⟩, rfl,
    hleads.size_le, fun _ => Iff.rfl, fun _ => hkeeps⟩
  · exact fun b hb => Nat.lt_of_lt_of_eq (h.twins.lt_of_own hb) Store.size_put.symm
  · intro b d hb hd
    rw [hkeeps hb] at hd
    exact h.twins.among_of_cell hb hd
  · intro b d hb hd
    by_cases hab : a = b
    · subst hab
      obtain ⟨old, hold⟩ := Store.exists_cell? (h.twins.lt_of_own ha)
      cases (Store.cell?_put_self hold).symm.trans hd
      exact hown
    · have hd' : (k.store.put a c).cell? b = some d := hd
      rw [Store.cell?_put_of_ne hab] at hd'
      exact h.closed hb hd'

/-- **All that is not the caller's is as it was**, whatever the caller does with its objects. -/
theorem leaves_of_alters (h : k.registry.Secluded k.own) (hrun : ReflTransGen Alters k k') :
    Leaves k k' := by
  induction hrun with
  | refl => exact .refl h
  | tail _ hstep ih =>
    refine ih.trans ?_
    cases hstep with
    | make hc hown => exact leaves_make ih.secluded hc hown
    | change ha hc hown => exact leaves_change ih.secluded ha hc hown

/-- Nothing that is read has changed. -/
theorem Leaves.readsLike [Stack] (h : Leaves k k') (hk : k.registry.Secluded k.own) (n : Nat) :
    ReadsLike k'.registry n k.registry n := by
  rw [h.registry]
  refine Registry.readsLike_of_keeps (t := k.store) hk.sound hk.twins hk.layers h.size_le
    (Nat.le_refl _) ?_ (fun _ _ _ _ => rfl) n
  rintro a _ ⟨-, ha⟩ hlt
  exact h.keeps hlt ha

/-! ### Runs -/

/-- Objects are secluded still after the next step, and those that the caller has it keeps. -/
theorem Proceeds.secluded [Stack] (hstep : Proceeds k k') (h : k.registry.Secluded k.own) :
    k'.registry.Secluded k'.own ∧ ∀ a, k.own a → k'.own a := by
  cases hstep with
  | alter hstep =>
    have hleaves := leaves_of_alters h (.single hstep)
    exact ⟨hleaves.secluded, fun a ha => (hleaves.own (h.twins.lt_of_own ha)).mpr ha⟩
  | operate hstep => exact ⟨(h.operate hstep).secluded, fun a ha => ha⟩

theorem secluded_of_run [Stack] (h : k.registry.Secluded k.own)
    (hrun : ReflTransGen Proceeds k k') :
    k'.registry.Secluded k'.own ∧ ∀ a, k.own a → k'.own a := by
  induction hrun with
  | refl => exact ⟨h, fun a ha => ha⟩
  | tail _ hstep ih =>
    obtain ⟨hsecluded, hown⟩ := hstep.secluded ih.1
    exact ⟨hsecluded, fun a ha => hown a (ih.2 a ha)⟩

/-- A caller has made an object, with all its parts. -/
def made (r : Registry) (v : Stored) : Keeping :=
  ⟨fun a => r.store.size ≤ a ∧ a < (r.store.adopt v).2.size,
    { r with store := (r.store.adopt v).2 }⟩

/-- What takes the place of an item of the value is the caller's. -/
theorem among_shifted {i : Item} (hi : v.store.Holds i) :
    (i.shifted 0 r.store.size).Among (made r v).own := by
  cases i with
  | scalar x => trivial
  | object a =>
    have ha : a < v.store.size := hi
    show r.store.size ≤ a + r.store.size ∧ a + r.store.size < (r.store.adopt v).2.size
    rw [Store.size_adopt]
    omega

/-- **New objects are secluded.** -/
theorem secluded_made (hr : r.Sound) (hplain : ∀ w ∈ r.reactions, w.2.IsPlain)
    (hstore : v.store.Sound) (hitem : v.store.Holds v.item) :
    (made r v).registry.Secluded (made r v).own := by
  have hleads := (Store.adopt_sound hr.store hstore hitem).1
  have hold {i : Item} (hi : r.store.Holds i) : i.Among fun a => ¬ (made r v).own a := by
    cases i with
    | scalar x => trivial
    | object a => exact fun ha => Nat.not_lt.mpr ha.1 hi
  refine ⟨hr.withStore hleads, Store.twins_besides (fun a ha => ha.2) ?_,
    fun c hc => Layers.paired_besides fun source i hi => hold (hr.settings c hc source i hi),
    hplain, ?_⟩
  · -- what was there before refers to nothing new
    intro a c ha hc
    have hlt : a < r.store.size :=
      Nat.lt_of_not_le fun hle => ha ⟨hle, Store.lt_size_of_cell? hc⟩
    have hcell : (r.store.adopt v).2.cell? a = some c := hc
    rw [(Store.growsTo_adopt r.store v).cell?_eq hlt] at hcell
    exact fun i hi => hold ((hr.store a c hcell).holds i hi)
  · -- and what is new to nothing else
    rintro a c ⟨hle, -⟩ hc
    obtain ⟨b, rfl⟩ := Nat.exists_eq_add_of_le hle
    have hcell : (r.store.adopt v).2.cell? (r.store.size + b) = some c := hc
    rw [Store.cell?_adopt] at hcell
    obtain ⟨d, hd, rfl⟩ := Option.map_eq_some_iff.mp hcell
    rw [Cell.items_map]
    exact List.forall_mem_map.mpr fun i hi => among_shifted ((hstore b d hd).holds i hi)

/-! ### Defaults that are shared -/

theorem sound_defaults : (Stored.ofValue Setting.defaults).store.Sound
    ∧ (Stored.ofValue Setting.defaults).store.Holds (Stored.ofValue Setting.defaults).item := by
  obtain ⟨hadds, hheld⟩ := Store.place_addsTo .empty Setting.defaults Layers.proper_defaults
  exact ⟨hadds.sound Registry.sound_empty.store, hheld⟩

/-- **New settings begin with the same**, whatever has been done to settings, where all begin with
a copy of one object. -/
theorem readsLike_addCopy_defaults [Stack] {q : Registry} (hr : r.Sound)
    (hplain : ∀ w ∈ r.reactions, w.2.IsPlain)
    (hrun : ReflTransGen (Operates (made r (.ofValue Setting.defaults)).own)
      (made r (.ofValue Setting.defaults)).registry q) (f : Files) :
    ReadsLike Registry.atStart 0 (q.addCopy f (r.store.adopt (.ofValue Setting.defaults)).1)
      q.settings.length := by
  obtain ⟨hstore, hitem⟩ := sound_defaults
  have hspares := (secluded_made hr hplain hstore hitem).operates hrun
  have hadd := hspares.trans (hspares.secluded.add f none none)
  have hheld := (Store.adopt_sound hr.store hstore hitem).2.mono hadd.size_le
  -- what has become of the defaults is their twin still, and so is a copy of it
  obtain ⟨hadopted, hroot⟩ := Store.twins_adopt r.store (.ofValue Setting.defaults)
  have htwins := hadopted.realign hstore (Nat.le_refl _) hadd.size_le (fun _ _ _ _ => rfl)
    fun a b hab hb => hadd.keeps ⟨hab ▸ Nat.le_add_right _ _, hb⟩
  obtain ⟨hcopied, hcopy⟩ := Store.twins_copy hadd.secluded.sound.store hheld
  refine Registry.readsLike_of_paired (htwins.comp hcopied) ?_
  rw [Registry.layers_addCopy]
  exact Layers.paired_none.update (.some ((hitem.realigned hroot).comp hcopy)) .defaults

/-! ### What is loaded -/

/-- **What is loaded from somebody stays theirs.**  A caller has made an object, of which parts may
be shared, and of which settings get copies only.  At any later time all its parts are the
caller's; whatever the caller does with them, all that can be read of any settings stays the
same; and whatever is done to any settings, the parts stay the same.  And new settings read like
those made at the start, in any registry; this is so, too, where their defaults are a
copy of one object, whatever has been done to settings since it was made. -/
theorem apart_of_made [Stack] (hr : r.Reachable) (hplain : ∀ w ∈ r.reactions, w.2.IsPlain)
    (hstore : v.store.Sound) (hitem : v.store.Holds v.item) :
    (∀ k, ReflTransGen Proceeds (made r v) k →
      (∀ a ∈ k.store.reached (r.store.adopt v).1, k.own a) ∧
      (∀ k', ReflTransGen Alters k k' → ∀ n, ReadsLike k'.registry n k.registry n) ∧
      ∀ q, ReflTransGen (Operates k.own) k.registry q →
        ∀ a, k.own a → q.store.cell? a = k.store.cell? a) ∧
    (∀ q f, (Registry.add q f none none).1 = .ok q.settings.length ∧
      ReadsLike Registry.atStart 0 (q.add f none none).2 q.settings.length) ∧
    ∀ q f, ReflTransGen (Operates (made r (.ofValue Setting.defaults)).own)
        (made r (.ofValue Setting.defaults)).registry q →
      ReadsLike Registry.atStart 0 (q.addCopy f (r.store.adopt (.ofValue Setting.defaults)).1)
        q.settings.length := by
  refine ⟨fun k hrun => ?_, fun q f => ⟨rfl, Registry.readsLike_add .empty q _ f⟩,
    fun q f hrun => readsLike_addCopy_defaults hr.sound hplain hrun f⟩
  have hmade := secluded_made hr.sound hplain hstore hitem
  obtain ⟨hk, hown⟩ := secluded_of_run hmade hrun
  refine ⟨Store.forall_mem_reached (fun a ha b hb => ?_) fun a ha => ?_,
    fun k' halters n => (leaves_of_alters hk halters).readsLike hk n,
    fun q hoperates a ha => (hk.operates hoperates).keeps ha⟩
  · obtain ⟨c, hc, hmem⟩ := Store.exists_of_mem_partsAt hb
    exact hk.closed ha hc _ hmem
  · have hroot : (r.store.adopt v).1.Among (made r v).own := among_shifted hitem
    rw [ha] at hroot
    exact hown a hroot

/-- An object that has one part twice. -/
def twofold : Stored :=
  ⟨⟨#[.mapping [(.text "x", .scalar (.integer 1))],
    .mapping [(.text "a", .object 0), (.text "b", .object 0)]], 0⟩, .object 1⟩

theorem sound_twofold : twofold.store.Sound := by
  rintro (_ | _ | a) c hc
  · cases hc
    exact Store.fits_mapping.mpr
      ⟨List.forall_mem_singleton.mpr trivial, List.pairwise_singleton _ _⟩
  · cases hc
    exact Store.fits_mapping.mpr ⟨List.forall_mem_cons.mpr
      ⟨Nat.zero_lt_two, List.forall_mem_singleton.mpr Nat.zero_lt_two⟩,
      Entries.distinctKeys_pair (by decide)⟩
  · cases hc

/-- The object has been made, and then loaded. -/
def loaded : Keeping :=
  ⟨(made .atStart twofold).own, (made .atStart twofold).registry.loadCopy 0
    (Registry.atStart.store.adopt twofold).1 .runtime⟩

/-- Settings that have begun with a copy of defaults that are shared. -/
def withShared : Registry :=
  (made .atStart (.ofValue Setting.defaults)).registry.loadCopy 0
    (Registry.atStart.store.adopt (.ofValue Setting.defaults)).1 .defaults

open scoped Stack in
/-- The level of the log has been changed in their defaults. -/
def relevelled : Registry :=
  (withShared.set 0 Setting.logLevel (.scalar (.text "DEBUG")) .defaults).2

open scoped Stack in
/-- The part is changed by the caller, and its copy by the settings. -/
theorem apart_of_made_twofold :
    (loaded.registry.find? 0 ["b", "x"]).map (·.1) = some .runtime ∧
      (∃ s, loaded.store.setElement (.object 4) (.text "x") (.scalar (.integer 2)) = .ok s ∧
        ReadsLike { loaded.registry with store := s } 0 loaded.registry 0) ∧
      (loaded.registry.set 0 ["a", "x"] (.scalar (.integer 3)) .runtime).2.store.cell? 4
        = loaded.store.cell? 4 ∧
      ReadsLike Registry.atStart 0 (relevelled.addCopy .empty
        (Registry.atStart.store.adopt (.ofValue Setting.defaults)).1)
        relevelled.settings.length := by
  have hplain : ∀ w ∈ Registry.atStart.reactions, w.2.IsPlain := nofun
  have hitem : twofold.store.Holds twofold.item := Nat.one_lt_two
  obtain ⟨hkept, -, hdefaults⟩ :=
    apart_of_made Registry.reachable_atStart hplain sound_twofold hitem
  have hmade := secluded_made Registry.reachable_atStart.sound hplain sound_twofold hitem
  have hheld := (Store.adopt_sound Registry.reachable_atStart.sound.store sound_twofold hitem).2
  have hrun : ReflTransGen Proceeds (made .atStart twofold) loaded :=
    .single (.operate (.loadCopy 0 .runtime hheld))
  have hown : loaded.own 4 := show 4 ≤ 4 ∧ 4 < 6 by decide
  obtain ⟨-, halters, hoperates⟩ := hkept loaded hrun
  obtain ⟨s, hset⟩ : ∃ s, loaded.store.setElement (.object 4) (.text "x")
      (.scalar (.integer 2)) = .ok s := ⟨_, rfl⟩
  refine ⟨by decide +kernel, ⟨s, hset, ?_⟩, ?_, ?_⟩
  · have htwo : (Item.scalar (.integer 2)).Among loaded.own := trivial
    have hstep := alters_of_setElement (secluded_of_run hmade hrun).1 hown htwo trivial hset
    exact halters _ (.single hstep) 0
  · have hstep : Operates loaded.own loaded.registry
        (loaded.registry.set 0 ["a", "x"] (.scalar (.integer 3)) .runtime).2 :=
      .set 0 ["a", "x"] .runtime trivial trivial
    exact hoperates _ (.single hstep) 4 hown
  · obtain ⟨hstore, hdefault⟩ := sound_defaults
    have hshared := (Store.adopt_sound Registry.reachable_atStart.sound.store hstore hdefault).2
    have hcopy : Operates (made .atStart (.ofValue Setting.defaults)).own
        (made .atStart (.ofValue Setting.defaults)).registry withShared :=
      .loadCopy 0 .defaults hshared
    have hset : Operates (made .atStart (.ofValue Setting.defaults)).own withShared relevelled :=
      .set 0 Setting.logLevel .defaults trivial trivial
    exact hdefaults relevelled _ (.tail (.single hcopy) hset)

end Keeping

end Winnow
