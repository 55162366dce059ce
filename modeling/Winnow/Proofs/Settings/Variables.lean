/-
Winnow/Proofs/Settings/Variables.lean

What settings have of environment variables that stand apart.

Variables stand apart when their paths are different, none of them goes on behind
another, and no name holds a dot (`Environment.Apart`).  Then new settings can be made in
every order of the variables, and the layer of the environment has the value of each
variable under its path, the sections on the way to these, and nothing else
(`HoldsOnly`).  As no part of a path holds a dot, a path is what the key made of it is
cut into (`keyParts_keyOf`), and so the value is found under that key wherever nothing
has been set (`HoldsOnly.find?`).

The objects of the layer are new ones, so it stays as it is whatever happens to the
other layers (`ownsLayer_new`).
-/
import Winnow.Proofs.Settings.Apart
import Winnow.Proofs.Text.Lowering
import Winnow.Proofs.Text.Parts

namespace Winnow

/-! ### Paths and keys -/

namespace Setting

/-- The key of a setting of the library, by its path in the section of the library. -/
def keyOf (path : List String) : String := rootSection ++ "." ++ ".".intercalate path

theorem keyParts_keyOf {path : List String} (hpath : path ≠ [])
    (hdots : ∀ part ∈ path, '.' ∉ part.toList) : keyParts (keyOf path) = rootSection :: path := by
  have hroot : Text.parts '.' rootSection = [rootSection] :=
    Text.parts_of_notMem (by decide)
  show Text.parts '.' (rootSection ++ String.singleton '.'
    ++ (String.singleton '.').intercalate path) = _
  rw [Text.parts_append, hroot, Text.parts_intercalate hpath hdots, List.singleton_append]

end Setting

namespace Environment

variable {e e' : Environment} {settings : List (List String × Scalar)} {u s t : Store}
    {l l' : Layers}
  {layer root : Item} {path : List String}

/-- The variables that count have paths that are different, none of which goes on behind another,
and names without dots. -/
structure Apart (e : Environment) : Prop where
  distinct : (e.settings.map Prod.fst).Nodup
  noneBehind : ∀ a ∈ e.settings, ∀ b ∈ e.settings, a.1 <+: b.1 → a.1 = b.1
  undotted : ∀ v ∈ e, (path? v.1).isSome = true → '.' ∉ v.1.toList

theorem Apart.perm (h : e.Apart) (hperm : e.Perm e') : e'.Apart := by
  have hsettings := settings_perm hperm
  refine ⟨(hsettings.map Prod.fst).nodup_iff.mp h.distinct, fun a ha b hb => ?_, fun v hv => ?_⟩
  · rw [hsettings.mem_iff.symm] at ha hb
    exact h.noneBehind a ha b hb
  · rw [hperm.mem_iff.symm] at hv
    exact h.undotted v hv

theorem Apart.orderless (h : e.Apart) : e.Orderless := by
  intro a ha b hb hbehind
  exact List.inj_on_of_nodup_map h.distinct ha hb (h.noneBehind a ha b hb hbehind)

/-- The parts of a path hold no dot, if the name of the variable holds none. -/
theorem not_dot_of_path? {name : String} (hname : '.' ∉ name.toList) (h : path? name = some path) :
    ∀ part ∈ path, '.' ∉ part.toList := by
  unfold path? at h
  dsimp only at h
  split at h
  · rw [← Option.some.inj h]
    intro part hpart hdot
    obtain ⟨cs, hcs, rfl⟩ := List.mem_map.mp hpart
    rw [String.toList_ofList] at hdot
    have hlower := Text.dot_mem_of_mem_lower (Text.mem_of_mem_splitAt hcs hdot)
    rw [String.toList_ofList] at hlower
    exact hname (List.mem_of_mem_drop hlower)
  · cases h

theorem keyParts_of_path? {name : String} (hname : '.' ∉ name.toList)
    (h : path? name = some path) :
    Setting.keyParts (Setting.keyOf path) = Setting.rootSection :: path :=
  Setting.keyParts_keyOf (path?_ne_nil h) (not_dot_of_path? hname h)

/-! ### The layer of the environment -/

/-- The layer of the environment has each of certain settings under its path in the section of the
library.  All else that is found in it are the sections on the way to them, whose keys are
texts. -/
structure HoldsOnly (l : Layers) (s : Store) (settings : List (List String × Scalar)) : Prop where
  leaf : ∀ d ∈ settings,
    l.itemAt? s (Setting.rootSection :: d.1) .environment = some (.scalar d.2)
  only : ∀ q w, l.itemAt? s q .environment = some w →
    (∃ d ∈ settings, q = Setting.rootSection :: d.1 ∧ w = .scalar d.2) ∨
    (∃ d ∈ settings, q <+: Setting.rootSection :: d.1 ∧ q ≠ Setting.rootSection :: d.1) ∧
      ∃ entries, s.entries? w = some entries ∧ ∀ f ∈ entries, ∃ key, f.1 = .text key

theorem LayerIn.find?_cons (h : LayerIn u s layer root) (key : String) (rest : List String) :
    s.find? layer (key :: rest)
      = if key = Setting.rootSection then s.find? root rest else none := by
  rw [Store.find?_cons, h.entries, Option.bind_some]
  split
  · rename_i hkey
    rw [(Entries.find?_text_cons _ _ _).1 (congrArg Value.text hkey.symm), Option.bind_some]
  · rename_i hkey
    have hother : Value.text Setting.rootSection ≠ .text key := by
      intro heq
      cases heq
      exact hkey rfl
    rw [(Entries.find?_text_cons _ _ _).2 hother]
    rfl

/-- The layer is made of settings that its section gives. -/
theorem holdsOnly_of_layerIn (hne : settings ≠ []) (hlayer : LayerIn u s layer root)
    (hgives : Gives s root settings) (hl : l .environment = some layer) :
    HoldsOnly l s settings := by
  have hitem (q : List String) : l.itemAt? s q .environment = s.find? layer q := by
    rw [Layers.itemAt?, hl, Option.bind_some]
  have hstands := hlayer.stands
  refine ⟨fun d hd => ?_, fun q w hw => ?_⟩
  · rw [hitem, hlayer.find?_cons, if_pos rfl]
    exact hgives.leaf d hd
  rw [hitem] at hw
  cases q with
  | nil =>
    cases hw
    obtain ⟨d, hd⟩ := List.exists_mem_of_ne_nil settings hne
    exact .inr ⟨⟨d, hd, List.nil_prefix, (List.cons_ne_nil _ _).symm⟩, _, hlayer.entries,
      List.forall_mem_singleton.mpr ⟨_, rfl⟩⟩
  | cons key rest =>
    rw [hlayer.find?_cons] at hw
    split at hw
    · rename_i hkey
      subst hkey
      rcases hgives.cases hstands.isObject hw with ⟨d, hd, rfl, rfl⟩ | ⟨hnone, a, rfl⟩
      · exact .inl ⟨d, hd, rfl, rfl⟩
      · -- the section is on the way to a setting: to any, if it is the outermost one
        have hway : ∃ d ∈ settings, rest <+: d.1 := by
          rcases hgives.only rest _ hw with rfl | hway
          · obtain ⟨d, hd⟩ := List.exists_mem_of_ne_nil settings hne
            exact ⟨d, hd, List.nil_prefix⟩
          · exact hway
        obtain ⟨d, hd, hprefix⟩ := hway
        refine .inr ⟨⟨d, hd, List.prefix_cons_inj _ |>.mpr hprefix, fun heq => ?_⟩,
          hstands.tree.sections rest a hw⟩
        exact hnone d hd (List.cons.inj heq).2
    · cases hw

/-- Without settings there is no layer to hold anything. -/
theorem holdsOnly_nil (hl : l .environment = none) : HoldsOnly l s [] := by
  refine ⟨nofun, fun q w hw => ?_⟩
  rw [Layers.itemAt?, hl] at hw
  cases hw

/-- What the layer has is found where nothing has been set. -/
theorem HoldsOnly.find? (h : HoldsOnly l s settings) {d : List String × Scalar} (hd : d ∈ settings)
    (hvalue : (Item.scalar d.2).isNull = false)
    (hunset : l.at? s (Setting.rootSection :: d.1) .runtime = none) :
    l.find? s (Setting.rootSection :: d.1) = some (.environment, .scalar d.2) := by
  refine Layers.find?_eq_some_iff.mpr
    ⟨Layers.at?_eq_some_iff.mpr ⟨h.leaf d hd, hvalue⟩, fun higher hrank => ?_⟩
  have hhigher : higher = .runtime := by
    revert hrank
    cases higher <;> decide
  rw [hhigher]
  exact hunset

/-- All objects of the layer are new. -/
theorem LayerIn.fresh (h : LayerIn u t layer root) (hu : u.Sound) {q : List String} {a : Nat}
    (hq : t.find? layer q = some (.object a)) : u.size ≤ a := by
  have hstands := h.stands
  cases q with
  | nil =>
    cases hq
    by_contra hold
    -- an old mapping would hold the section, which is new
    have hentries : u.entries? (.object a) = some [(.text Setting.rootSection, root)] := by
      rw [← hstands.grows.entries?_eq (i := .object a) (Nat.lt_of_not_le hold)]
      exact h.entries
    obtain ⟨b, rfl⟩ := hstands.isObject
    have hheld : b < u.size := (hu.fits_entries hentries).holds _ List.mem_cons_self
    exact absurd (hstands.fresh [] b rfl) (Nat.not_le_of_lt hheld)
  | cons key rest =>
    rw [h.find?_cons] at hq
    split at hq
    · exact hstands.fresh rest a hq
    · cases hq

/-- What is held depends on which settings there are, not on their order. -/
theorem HoldsOnly.congr {settings' : List (List String × Scalar)} (h : HoldsOnly l s settings)
    (hsame : ∀ d, d ∈ settings ↔ d ∈ settings') : HoldsOnly l s settings' := by
  refine ⟨fun d hd => h.leaf d ((hsame d).mpr hd), fun q w hw => ?_⟩
  rcases h.only q w hw with ⟨d, hd, hleaf⟩ | ⟨⟨d, hd, hway⟩, hsection⟩
  · exact .inl ⟨d, (hsame d).mp hd, hleaf⟩
  · exact .inr ⟨⟨d, (hsame d).mp hd, hway⟩, hsection⟩

/-- What is held stays so while the layer and its objects are as they were. -/
theorem HoldsOnly.of_cells (h : HoldsOnly l s settings)
    (hlayer : l' .environment = l .environment)
    (hcells : ∀ q a, l.itemAt? s q .environment = some (.object a) → t.cell? a = s.cell? a) :
    HoldsOnly l' t settings := by
  have hitem (q : List String) : l'.itemAt? t q .environment = l.itemAt? s q .environment := by
    unfold Layers.itemAt?
    rw [hlayer]
    cases hi : l .environment with
    | none => rfl
    | some i =>
      refine Store.find?_congr fun p a _ _ ha => hcells p a ?_
      rw [Layers.itemAt?, hi]
      exact ha
  refine ⟨fun d hd => (hitem _).trans (h.leaf d hd), fun q w hw => ?_⟩
  rw [hitem] at hw
  rcases h.only q w hw with hleaf | ⟨hway, entries, hentries, htexts⟩
  · exact .inl hleaf
  · obtain ⟨a, rfl, -⟩ := Store.entries?_eq_some_iff.mp hentries
    refine .inr ⟨hway, entries, ?_, htexts⟩
    rw [Store.entries?_congr (hcells q a hw)]
    exact hentries

end Environment

/-! ### New settings with variables -/

namespace Registry

open Environment (HoldsOnly LayerIn path?)

variable {r q : Registry} {f : Files} {file : Option String} {e e' : Environment} {n : Nat}
  {l : Layers} {u t : Store} {layer root : Item}

/-- Before the environment is read, there is no layer of it. -/
theorem environment_newLayers {s : Store} (h : newLayers f file none s = (.ok l, u)) :
    l .environment = none := by
  refine (newLayers_preserve (J := fun l _ => l .environment = none) (I := fun _ => True) h
    (fun _ _ _ => trivial) rfl (fun path l u hloaded => ?_) nofun).2 l rfl
  obtain ⟨⟨i, v⟩, -, hl⟩ := except_bind_eq_ok_iff.mp hloaded
  cases hl
  rfl

/-- The objects of the layer of the environment are new, and the other layers hold old ones. -/
theorem ownsLayer_new (hu : u.Sound) (hl : l.Held u) (hlayer : LayerIn u t layer root)
    (r : Registry) : (r.withNew (l.update .environment (some layer)) t).OwnsLayer .environment
      r.settings.length := by
  have hgrows := hlayer.stands.grows
  refine ⟨Pairing.realigned Eq u.size t.size t.size, fun a => u.size ≤ a ∧ a < t.size,
    ⟨?_, fun other hother => ?_, And.right, ?_⟩, fun path a ha => ?_⟩
  · exact (Store.twins_refl u).realign hu hgrows.size_le hgrows.size_le
      (fun _ _ _ ha => hgrows.cell?_eq ha) fun _ _ _ hb => hgrows.cell?_eq hb
  · rw [layers_withNew, Layers.update, if_neg hother]
    cases hi : l other with
    | none => exact .none
    | some i =>
      exact .some ((hl other i hi).realigned (Item.paired_refl (fun _ => rfl) i))
  · rintro a b ⟨hnew, hold⟩ (⟨ha, -⟩ | ⟨k, rfl, -⟩)
    · omega
    · omega
  · rw [layers_withNew, Layers.itemAt?, Layers.update, if_pos rfl, Option.bind_some] at ha
    exact ⟨hlayer.fresh hu ha, hlayer.stands.tree.sound.holds_of_find? hlayer.holds ha⟩

/-- Settings have what the variables of an environment give: a layer of the environment that holds
just that, if any variable counts, and the value of each variable under its key wherever nothing
has been set. -/
structure HasVariables (e : Environment) (n : Nat) (q : Registry) : Prop where
  layer : q.layers n .environment = none ↔ e.settings = []
  holds : HoldsOnly (q.layers n) q.store e.settings
  found : ∀ v ∈ e, ∀ path, path? v.1 = some path →
    (q.layers n).at? q.store (Setting.keyParts (Setting.keyOf path)) .runtime = none →
    q.find? n (Setting.keyParts (Setting.keyOf path))
        = some (.environment, .scalar (Setting.read v.2)) ∧
      ∀ default, q.get n (Setting.keyParts (Setting.keyOf path)) default
        = .scalar (Setting.read v.2)

theorem HasVariables.perm (h : HasVariables e n q) (hperm : e.Perm e') : HasVariables e' n q := by
  have hsettings := Environment.settings_perm hperm
  refine ⟨h.layer.trans ⟨fun hnil => ?_, fun hnil => ?_⟩, h.holds.congr fun d => hsettings.mem_iff,
    fun v hv => h.found v (hperm.mem_iff.mpr hv)⟩
  · exact List.Perm.nil_eq (hnil ▸ hsettings) |>.symm
  · exact List.Perm.eq_nil (hnil ▸ hsettings)

theorem hasVariables_of_holdsOnly (h : e.Apart)
    (hlayer : q.layers n .environment = none ↔ e.settings = [])
    (hholds : HoldsOnly (q.layers n) q.store e.settings) : HasVariables e n q := by
  refine ⟨hlayer, hholds, fun v hv path hpath hunset => ?_⟩
  have hsetting : (path, Setting.read v.2) ∈ e.settings :=
    Environment.mem_settings_iff.mpr ⟨v, hv, hpath, rfl⟩
  have hkey : Setting.keyParts (Setting.keyOf path) = Setting.rootSection :: path :=
    Environment.keyParts_of_path? (h.undotted v hv (by rw [hpath]; rfl)) hpath
  rw [hkey] at hunset ⊢
  have hfound : q.find? n (Setting.rootSection :: path)
      = some (.environment, .scalar (Setting.read v.2)) :=
    hholds.find? hsetting (Environment.isNull_read v.2) hunset
  exact ⟨hfound, get_of_find? hfound⟩

/-- Settings are new and have what the variables of an environment give, in a layer of its own. -/
structure MadeWith (e : Environment) (n : Nat) (q : Registry) : Prop where
  unset : q.layers n .runtime = none
  has : HasVariables e n q
  owns : q.OwnsLayer .environment n

/-- New settings where no variable counts have no layer of the environment. -/
theorem exists_add_of_nil (hr : r.Sound) (hnew : newLayers f file none r.store = (.ok l, u))
    (h : e.Apart) (hempty : e.settings = []) :
    ∃ q, r.add f file (some e) = (.ok r.settings.length, q) ∧ MadeWith e r.settings.length q := by
  have hlayers := layers_withNew r l u
  have hnone : (r.withNew l u).layers r.settings.length .environment = none := by
    rw [hlayers]
    exact environment_newLayers hnew
  refine ⟨r.withNew l u, (add_some_eq_ok_iff hnew).mpr
    ⟨l, u, Environment.load_eq_of_nil hempty l u, rfl, rfl⟩, ?_, ?_, ownsLayer_of_none hnone⟩
  · rw [hlayers]
    exact (plain_newLayers hr.store hnew).unset
  · refine hasVariables_of_holdsOnly h (iff_of_true hnone hempty) ?_
    rw [hempty]
    exact Environment.holdsOnly_nil hnone

/-- New settings where variables count that stand apart have them in a layer of its own. -/
theorem exists_add_of_ne_nil (hr : r.Sound) (hnew : newLayers f file none r.store = (.ok l, u))
    (h : e.Apart) (hne : e.settings ≠ []) :
    ∃ q, r.add f file (some e) = (.ok r.settings.length, q) ∧ MadeWith e r.settings.length q := by
  have hplain := plain_newLayers hr.store hnew
  have hu := hplain.ready.sound
  obtain ⟨v, hfill, hstands, hgives⟩ := Environment.exists_assignAll (Environment.stands_new hu)
    (Environment.gives_new u) (fun d hd => Environment.ne_nil_of_mem_settings hd) h.orderless
  obtain ⟨layer, t, hload, hgrows, hlayer⟩ := Environment.load_of_fill hu hne hfill l
  have hlayers := layers_withNew r (l.update .environment (some layer)) t
  have hthere : (r.withNew (l.update .environment (some layer)) t).layers r.settings.length
      .environment = some layer := by
    rw [hlayers]
    exact if_pos rfl
  refine ⟨_, (add_some_eq_ok_iff hnew).mpr ⟨_, t, hload, rfl, rfl⟩, ?_, ?_,
    ownsLayer_new hu hplain.ready.held hlayer r⟩
  · rw [hlayers]
    exact (hplain.withEnvironment hlayer).unset
  · refine hasVariables_of_holdsOnly h (iff_of_false ?_ hne) ?_
    · rw [hthere]
      nofun
    · exact Environment.holdsOnly_of_layerIn hne hlayer
        (hgives.mono hgrows hstands.tree.sound hstands.tree.holds) hthere

theorem exists_add_of_apart (hr : r.Sound) (hnew : newLayers f file none r.store = (.ok l, u))
    (h : e.Apart) :
    ∃ q, r.add f file (some e) = (.ok r.settings.length, q) ∧ MadeWith e r.settings.length q := by
  by_cases hempty : e.settings = []
  · exact exists_add_of_nil hr hnew h hempty
  · exact exists_add_of_ne_nil hr hnew h hempty

/-- Other sources may be asked for anything. -/
theorem HasVariables.run [Stack] {history : List Request} (h : HasVariables e n q)
    (hapart : e.Apart) (hown : q.OwnsLayer .environment n) (hq : q.Unwatched n)
    (hhistory : ∀ request ∈ history, request.IsSound ∧ request.IsBeside .environment) :
    HasVariables e n (Registry.run n history q) := by
  obtain ⟨hlayer, hcells⟩ := hown.run hq hhistory
  refine hasVariables_of_holdsOnly hapart ?_ (h.holds.of_cells hlayer hcells)
  rw [hlayer]
  exact h.layer

/-- **Settings from environment variables.**  Let new settings be made where the environment is
not read, and let the variables stand apart.  Then they are made in every order of the variables;
their layer of the environment has the value of each variable under its path and nothing else, and
is not there if no variable counts; and wherever nothing has been set, the value is found under the
key of the path, as one from the environment, whatever the defaults and the file hold.  At first
nothing has been set, and all this stays so over every history of requests for other sources. -/
theorem hasVariables_of_apart [Stack] (hr : r.Reachable) (hfile : (r.add f file none).1 = .ok n)
    (h : e.Apart) (hperm : e.Perm e') :
    ∃ q, r.add f file (some e') = (.ok n, q) ∧ q.layers n .runtime = none ∧ HasVariables e n q ∧
      ∀ history, (∀ request ∈ history, request.IsSound ∧ request.IsBeside .environment) →
        HasVariables e n (Registry.run n history q) := by
  obtain ⟨l, u, hnew, rfl, -⟩ := add_eq_ok_iff.mp (Prod.ext hfile rfl)
  have hapart := h.perm hperm
  obtain ⟨q, hadd, hmade⟩ := exists_add_of_apart hr.sound hnew hapart
  refine ⟨q, hadd, hmade.unset, hmade.has.perm hperm.symm, fun history hhistory => ?_⟩
  have hrun := hmade.has.run hapart hmade.owns (unwatched_of_add hr.sound hadd) hhistory
  exact hrun.perm hperm.symm

theorem apart_sideBySide : sideBySide.Apart := by
  refine ⟨?_, fun a ha b hb hbehind => ?_, fun v hv _ => ?_⟩
  · rw [settings_sideBySide]
    decide
  · rw [orderless_sideBySide a ha b hb hbehind]
  · revert v
    decide

open scoped Stack in
theorem hasVariables_of_apart_sideBySide :
    (empty.add .empty none none).1 = .ok 0 ∧ sideBySide.Apart ∧
    sideBySide.Perm sideBySide.reverse ∧
    ∃ q, empty.add .empty none (some sideBySide.reverse) = (.ok 0, q) ∧
      q.find? 0 (Setting.keyParts "resfilter.logging.level")
        = some (.environment, .scalar (Setting.read "DEBUG")) ∧
      ∀ history, (∀ request ∈ history, request.IsSound ∧ request.IsBeside .environment) →
        HasVariables sideBySide 0 (Registry.run 0 history q) := by
  have hperm : sideBySide.Perm sideBySide.reverse := (List.reverse_perm _).symm
  obtain ⟨q, hadd, hunset, hhas, hrun⟩ :=
    hasVariables_of_apart .empty add_without_variables apart_sideBySide hperm
  refine ⟨add_without_variables, apart_sideBySide, hperm, q, hadd, ?_, hrun⟩
  have hfound := hhas.found ("RESFILTER_LOGGING_LEVEL", "DEBUG") (by decide) ["logging", "level"]
    (by decide +kernel) (by rw [Layers.at?, hunset]; rfl)
  exact hfound.1

end Registry

end Winnow
