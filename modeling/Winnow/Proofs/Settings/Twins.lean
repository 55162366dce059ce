/-
Winnow/Proofs/Settings/Twins.lean

Layers of the same objects in twins.

Where the layers of all sources are paired (`Layers.Paired`), every setting is found in
the same layer (`Layers.Paired.find?`), and the layers merge to the same, or fail to
merge in the same way (`Layers.Paired.merged`).

A change of the layer of one source looks at no other layer.  So where this layer is
paired, the change comes to the same, whatever is in the other layers (`ChangedAlike`):
so it is for putting a setting into the layer, for a copy in its place, and for a file
in its place.  The environment gives the same layer, too (`Environment.load_alike`).
-/
import Winnow.Proofs.Settings.Rounds
import Winnow.Proofs.Store.Alongside
import Winnow.Proofs.Yaml.Twins

namespace Winnow

open Store (Alongside Twins)

variable {P : Pairing} {s t : Store}

namespace Layers

variable {l m : Layers} {source : Source}

/-- The sources give the same objects. -/
def Paired (P : Pairing) (l m : Layers) : Prop :=
  ∀ source, Option.Rel (Item.Paired P) (l source) (m source)

/-! ### Reading -/

theorem at?_alike (h : Twins P s t) (hl : Option.Rel (Item.Paired P) (l source) (m source))
    (path : List String) :
    Option.Rel (Item.Paired P) (l.at? s path source) (m.at? t path source) := by
  unfold Layers.at?
  rcases rel_cases hl with ⟨hs, ht⟩ | ⟨i, j, hs, ht, hi⟩ <;> rw [hs, ht]
  · exact .none
  · show Option.Rel _ ((s.find? i path).bind _) ((t.find? j path).bind _)
    rcases rel_cases (h.find? hi path) with ⟨hs, ht⟩ | ⟨i', j', hs, ht, hi'⟩ <;> rw [hs, ht]
    · exact .none
    · rw [Option.bind_some, Option.bind_some, hi'.isNull_eq]
      split
      · exact .none
      · exact .some hi'

/-- A setting and its source, found in both. -/
def FoundAlike (P : Pairing) (x y : Source × Item) : Prop := x.1 = y.1 ∧ Item.Paired P x.2 y.2

/-- **Every setting is found in the same layer.** -/
theorem Paired.find? (hl : Paired P l m) (h : Twins P s t) (path : List String) :
    Option.Rel (FoundAlike P) (l.find? s path) (m.find? t path) := by
  unfold Layers.find?
  generalize Source.all.reverse = sources
  induction sources with
  | nil => exact .none
  | cons source rest ih =>
    rw [List.findSome?_cons, List.findSome?_cons]
    rcases rel_cases (at?_alike h (hl source) path) with ⟨hs, ht⟩ | ⟨i, j, hs, ht, hi⟩ <;>
      rw [hs, ht]
    · exact ih
    · exact .some ⟨rfl, hi⟩

theorem Paired.mergeOver [Stack] (hl : Paired P l m) (h : Twins P s t)
    {base base' : List (Value × Item)}
    (hbase : Entries.Paired P base base') (sources : List Source) :
    OutcomesAlike (Entries.Paired P) (l.mergeOver sources base s).1 (m.mergeOver sources base' t).1
      ∧ Alongside P s t (l.mergeOver sources base s).2 (m.mergeOver sources base' t).2 := by
  induction sources generalizing s t base base' with
  | nil => exact ⟨.ok hbase, .refl h⟩
  | cons source rest ih =>
    unfold Layers.mergeOver
    rcases rel_cases (hl source) with ⟨hs, ht⟩ | ⟨i, j, hs, ht, hi⟩ <;> rw [hs, ht]
    · exact ih h hbase
    dsimp only
    rw [h.kind_eq hi]
    rcases rel_cases (h.entries? hi) with ⟨hs, ht⟩ | ⟨upper, upper', hs, ht, hupper⟩ <;> rw [hs, ht]
    · exact ⟨.error _, .refl h⟩
    dsimp only [Store.merge]
    rcases rel_cases (h.mergeTo Stack.mappings hbase hupper) with
      ⟨hs, ht⟩ | ⟨x, y, hs, ht, hentries, hdone⟩ <;> rw [hs, ht]
    · exact ⟨.error _, .refl h⟩
    · obtain ⟨houtcome, hrest⟩ := ih hdone.twins hentries
      exact ⟨houtcome, hdone.trans hrest⟩

/-- **All layers merge to the same**, or fail to merge in the same way. -/
theorem Paired.merged [Stack] (hl : Paired P l m) (h : Twins P s t) :
    OutcomesAlike (Item.Paired P) (l.merged s).1 (m.merged t).1
      ∧ Alongside P s t (l.merged s).2 (m.merged t).2 := by
  obtain ⟨houtcome, hdone⟩ := hl.mergeOver h .nil Source.all
  unfold Layers.merged
  rcases hx : l.mergeOver Source.all [] s with ⟨x, u⟩
  rcases hy : m.mergeOver Source.all [] t with ⟨y, v⟩
  rw [hx, hy] at houtcome hdone
  cases houtcome with
  | error fault => exact ⟨.error fault, hdone⟩
  | ok hentries =>
    exact ⟨.ok (hdone.twins.paired_add _ _), hdone.trans (hdone.twins.add (.mapping hentries))⟩

/-! ### The layer of one source -/

/-- The layer of a source is there, or is added, in both. -/
theorem ensure_alike (h : Twins P s t) (hl : Option.Rel (Item.Paired P) (l source) (m source)) :
    Item.Paired P (l.ensure s source).1 (m.ensure t source).1
      ∧ Alongside P s t (l.ensure s source).2.2 (m.ensure t source).2.2
      ∧ Option.Rel (Item.Paired P) ((l.ensure s source).2.1 source)
        ((m.ensure t source).2.1 source) := by
  unfold Layers.ensure
  rcases rel_cases hl with ⟨hs, ht⟩ | ⟨i, j, hs, ht, hi⟩
  · rw [hs, ht]
    have hfresh := h.paired_add (.mapping []) (.mapping [])
    refine ⟨hfresh, h.add (.mapping .nil), ?_⟩
    dsimp only [Layers.update]
    rw [if_pos rfl, if_pos rfl]
    exact .some hfresh
  · rw [hs, ht]
    exact ⟨hi, .refl h, hl⟩

theorem ensure_other (l : Layers) (s : Store) {other : Source} (hne : other ≠ source) :
    (l.ensure s source).2.1 other = l other := by
  unfold Layers.ensure
  split
  · rfl
  · exact if_neg hne

theorem clear_of_ne (l : Layers) {other : Source} (hne : other ≠ source) :
    l.clear source other = l other := by
  unfold Layers.clear
  split
  · rfl
  · exact if_neg hne

/-- Putting a setting into the layer of a source. -/
theorem assign_alike (h : Twins P s t) (hl : Option.Rel (Item.Paired P) (l source) (m source))
    {value value' : Item} (hvalue : Item.Paired P value value') (path : List String) :
    Alongside P s t (l.assign s source path value).2.2 (m.assign t source path value').2.2
      ∧ Option.Rel (Item.Paired P) ((l.assign s source path value).2.1 source)
        ((m.assign t source path value').2.1 source) := by
  obtain ⟨hlayer, hensured, hl'⟩ := ensure_alike h hl
  exact ⟨hensured.trans (hensured.twins.assign hvalue hlayer path).2, hl'⟩

/-! ### All layers -/

namespace Paired

theorem update (hl : Paired P l m) {i j : Option Item} (hi : Option.Rel (Item.Paired P) i j)
    (source : Source) : Paired P (l.update source i) (m.update source j) := by
  intro other
  unfold Layers.update
  split
  · exact hi
  · exact hl other

theorem clear (hl : Paired P l m) (source : Source) :
    Paired P (l.clear source) (m.clear source) := by
  unfold Layers.clear
  split
  · exact hl
  · exact hl.update .none source

theorem clearAll (hl : Paired P l m) : Paired P l.clearAll m.clearAll := by
  intro other
  unfold Layers.clearAll
  split
  · exact hl other
  · exact .none

theorem assign (hl : Paired P l m) (h : Twins P s t) {value value' : Item}
    (hvalue : Item.Paired P value value') (source : Source) (path : List String) :
    Paired P (l.assign s source path value).2.1 (m.assign t source path value').2.1
      ∧ Alongside P s t (l.assign s source path value).2.2 (m.assign t source path value').2.2 := by
  obtain ⟨hdone, hlayer⟩ := assign_alike h (hl source) hvalue path
  refine ⟨fun other => ?_, hdone⟩
  by_cases hother : other = source
  · rw [hother]
    exact hlayer
  · show Option.Rel _ ((l.ensure s source).2.1 other) ((m.ensure t source).2.1 other)
    rw [ensure_other l s hother, ensure_other m t hother]
    exact hl other

end Paired

theorem paired_none : Paired P none none := fun _ => .none

/-- The defaults are made in both. -/
theorem initial_alike (h : Twins P s t) :
    Paired P (initial s).1 (initial t).1 ∧ Alongside P s t (initial s).2 (initial t).2 := by
  obtain ⟨hitem, hdone⟩ := h.place Setting.defaults
  exact ⟨paired_none.update (.some hitem) .defaults, hdone⟩

end Layers

/-! ### The environment -/

namespace Environment

theorem assignAll_alike {i j : Item} (h : Twins P s t) (hi : Item.Paired P i j)
    (settings : List (List String × Scalar)) :
    (assignAll i settings s).1 = (assignAll j settings t).1
      ∧ Alongside P s t (assignAll i settings s).2 (assignAll j settings t).2 := by
  induction settings generalizing s t with
  | nil => exact ⟨rfl, .refl h⟩
  | cons setting rest ih =>
    obtain ⟨path, value⟩ := setting
    obtain ⟨houtcome, hdone⟩ := h.assign (.scalar value) hi path
    rw [assignAll, assignAll]
    rcases hx : s.assign (.scalar value) i path with ⟨_ | _, u⟩ <;>
    rcases hy : t.assign (.scalar value) j path with ⟨_ | _, v⟩ <;>
    rw [hx, hy] at houtcome hdone <;> cases houtcome
    · exact ⟨rfl, hdone⟩
    · obtain ⟨hrest, hlast⟩ := ih hdone.twins
      exact ⟨hrest, hdone.trans hlast⟩

/-- **The layer of the environment** is made in both, or cannot be made for the same reason. -/
theorem load_alike {l m : Layers} (h : Twins P s t) (hl : Layers.Paired P l m) (e : Environment) :
    OutcomesAlike (Layers.Paired P) (e.load l s).1 (e.load m t).1
      ∧ Alongside P s t (e.load l s).2 (e.load m t).2 := by
  have hadd := h.add (.mapping .nil)
  have hroot := h.paired_add (.mapping []) (.mapping [])
  obtain ⟨houtcome, hall⟩ := assignAll_alike hadd.twins hroot e.settings
  unfold load
  dsimp only
  split
  · exact ⟨.ok hl, .refl h⟩
  rcases hx : assignAll (s.add (.mapping [])).1 e.settings (s.add (.mapping [])).2
    with ⟨_ | _, u⟩ <;>
  rcases hy : assignAll (t.add (.mapping [])).1 e.settings (t.add (.mapping [])).2
    with ⟨_ | _, v⟩ <;>
  rw [hx, hy] at houtcome hall <;> cases houtcome
  · exact ⟨.error _, hadd.trans hall⟩
  · have hentries : Entries.Paired P [(.text Setting.rootSection, (s.add (.mapping [])).1)]
        [(.text Setting.rootSection, (t.add (.mapping [])).1)] := .cons ⟨rfl, hroot⟩ .nil
    have hlast := hall.twins.add (.mapping hentries)
    exact ⟨.ok (hl.update (.some (hall.twins.paired_add _ _)) .environment),
      (hadd.trans hall).trans hlast⟩

end Environment

/-! ### Files -/

theorem readDocument_alike (h : Twins P s t) (hmark : s.nextMark = t.nextMark) (shown : String)
    (bytes : List UInt8) : OutcomesAlike (Yaml.LoadedAlike P s t)
      (Setting.readDocument shown bytes s) (Setting.readDocument shown bytes t) := by
  have hload := Yaml.load_alike h hmark (Yaml.Supply.ofBytes bytes)
  unfold Setting.readDocument
  generalize (Yaml.Supply.ofBytes bytes).load s = x at hload ⊢
  generalize (Yaml.Supply.ofBytes bytes).load t = y at hload ⊢
  cases hload with
  | error fault => cases fault <;> exact .error _
  | @ok x y hloaded =>
    obtain ⟨i, u⟩ := x
    obtain ⟨j, v⟩ := y
    dsimp only
    rcases rel_cases (hloaded.2.twins.entries? hloaded.1) with ⟨hs, ht⟩ | ⟨_, _, hs, ht, -⟩ <;>
      dsimp only at hs ht <;> rw [hs, ht]
    · exact .error _
    · exact .ok hloaded

/-- **A file that is read into twins** gives the same in both, or is refused in the same way. -/
theorem readFile_alike (h : Twins P s t) (hmark : s.nextMark = t.nextMark) (f : Files)
    (path : String) : OutcomesAlike (Yaml.LoadedAlike P s t) (Setting.readFile f path s)
      (Setting.readFile f path t) := by
  refine .bind_same _ fun p => ?_
  dsimp only
  split
  · exact .error _
  split
  · exact .error _
  · exact .error _
  split
  · exact .error _
  · exact .error _
  · exact readDocument_alike h hmark path _

namespace Registry

variable {r q : Registry} {n : Nat} {source : Source}

/-- A change of the layer of one source has come to the same in two registries, whatever is in
the other layers; and these are as they were. -/
structure ChangedAlike (P : Pairing) (n : Nat) (source : Source) (r q r' q' : Registry) : Prop where
  alongside : Alongside P r.store q.store r'.store q'.store
  layer : Option.Rel (Item.Paired P) (r'.layers n source) (q'.layers n source)
  others : ∀ other ≠ source, r'.layers n other = r.layers n other
  others' : ∀ other ≠ source, q'.layers n other = q.layers n other

/-- A function on registries does no more than change the layer of one source of some settings,
and what it makes of it depends on this layer only. -/
def Touches (n : Nat) (source : Source) (f : Registry → Registry) : Prop :=
  ∀ (P : Pairing) (r q : Registry), n < r.settings.length → n < q.settings.length →
    Twins P r.store q.store →
    Option.Rel (Item.Paired P) (r.layers n source) (q.layers n source) →
    ChangedAlike P n source r q (f r) (f q)

theorem layers_setLayers_of_lt (hn : n < r.settings.length) (l : Layers) (s : Store) :
    (r.setLayers n l s).layers n = l := (layers_setLayers r n l s).trans (if_pos hn)

theorem changedAlike_setLayers {l m : Layers} (hr : n < r.settings.length)
    (hq : n < q.settings.length) (h : Alongside P r.store q.store s t)
    (hl : Option.Rel (Item.Paired P) (l source) (m source))
    (hothers : ∀ other ≠ source, l other = r.layers n other)
    (hothers' : ∀ other ≠ source, m other = q.layers n other) :
    ChangedAlike P n source r q (r.setLayers n l s) (q.setLayers n m t) := by
  have hlayers := layers_setLayers_of_lt hr l s
  have hlayers' := layers_setLayers_of_lt hq m t
  refine ⟨h, ?_, fun other hne => ?_, fun other hne => ?_⟩
  · rw [hlayers, hlayers']
    exact hl
  · rw [hlayers, hothers other hne]
  · rw [hlayers', hothers' other hne]

/-- One item takes the place of the layer in each. -/
theorem changedAlike_update {i j : Item} (hr : n < r.settings.length)
    (hq : n < q.settings.length) (h : Alongside P r.store q.store s t)
    (hi : Item.Paired P i j) :
    ChangedAlike P n source r q (r.setLayers n ((r.layers n).update source (some i)) s)
      (q.setLayers n ((q.layers n).update source (some j)) t) := by
  refine changedAlike_setLayers hr hq h ?_ (fun other hne => if_neg hne) fun other hne => if_neg hne
  unfold Layers.update
  rw [if_pos rfl, if_pos rfl]
  exact .some hi

/-! ### What touches one source only -/

theorem touches_loadCopy (n : Nat) (value : Stored) (source : Source) :
    Touches n source fun r =>
      ({ r with store := (r.store.adopt value).2 } : Registry).loadCopy n (r.store.adopt value).1
        source := by
  intro P r q hr hq h _
  obtain ⟨hi, hadopted⟩ := h.adopt value
  obtain ⟨hcopied, hcopy⟩ := hadopted.twins.copy hi
  exact changedAlike_update hr hq (hadopted.trans hcopy) hcopied

theorem assign_snd (r : Registry) (n : Nat) (path : List String) (value : Item)
    (source : Source) : (r.assign n path value source).2
      = r.setLayers n ((r.layers n).assign r.store source path value).2.1
        ((r.layers n).assign r.store source path value).2.2 := by
  unfold Registry.assign
  split <;> rename_i heq <;> rw [heq]

theorem touches_assign (n : Nat) (path : List String) (value : Stored) (source : Source) :
    Touches n source fun r =>
      (({ r with store := (r.store.adopt value).2 } : Registry).assign n path
        (r.store.adopt value).1 source).2 := by
  intro P r q hr hq h hl
  obtain ⟨hi, hadopted⟩ := h.adopt value
  obtain ⟨hassign, hl'⟩ := Layers.assign_alike hadopted.twins hl hi path
  dsimp only
  rw [assign_snd, assign_snd]
  exact changedAlike_setLayers hr hq (hadopted.trans hassign) hl'
    (fun other hne => Layers.ensure_other _ _ hne) fun other hne => Layers.ensure_other _ _ hne

theorem touches_loadFile (n : Nat) (f : Files) (path : String) (source : Source) (mark : Nat) :
    Touches n source fun r =>
      (({ r with store := { r.store with nextMark := mark } } : Registry).loadFile n f path
        source).2 := by
  intro P r q hr hq h hl
  have hmarked := (Alongside.refl h).mark mark mark
  have hread := readFile_alike hmarked.twins rfl f path
  dsimp only
  unfold Registry.loadFile Layers.loadFile
  dsimp only
  generalize Setting.readFile f path { r.store with nextMark := mark } = x at hread ⊢
  generalize Setting.readFile f path { q.store with nextMark := mark } = y at hread ⊢
  cases hread with
  | error fault => exact ⟨hmarked, hl, fun _ _ => rfl, fun _ _ => rfl⟩
  | ok hread => exact changedAlike_update hr hq (hmarked.trans hread.2) hread.1

theorem layers_clear (hn : n < r.settings.length) (source : Option Source) :
    (r.clear n source).layers n = match source with
      | some source => (r.layers n).clear source
      | none => (r.layers n).clearAll := by
  unfold Registry.clear Registry.layers Registry.update
  dsimp only
  rw [List.getElem?_modify, List.getElem?_eq_getElem hn]
  show (if n = n then ({ r.settings[n] with layers := _ } : Settings) else r.settings[n]).layers = _
  rw [if_pos rfl]
  cases source <;> rfl

theorem touches_clear (n : Nat) (source : Source) :
    Touches n source fun r => r.clear n (some source) := by
  intro P r q hr hq h hl
  have hlayers : (r.clear n (some source)).layers n = (r.layers n).clear source :=
    layers_clear hr (some source)
  have hlayers' : (q.clear n (some source)).layers n = (q.layers n).clear source :=
    layers_clear hq (some source)
  refine ⟨.refl h, ?_, fun other hne => ?_, fun other hne => ?_⟩
  · rw [hlayers, hlayers']
    unfold Layers.clear
    split
    · exact hl
    · unfold Layers.update
      rw [if_pos rfl, if_pos rfl]
      exact .none
  · rw [hlayers, Layers.clear_of_ne _ hne]
  · rw [hlayers', Layers.clear_of_ne _ hne]

end Registry

end Winnow
