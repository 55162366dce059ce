/-
Winnow/Proofs/Settings/Elsewhere.lean

What a change of one setting leaves alone.

Where no object is reached in two ways, be it in one layer or in two
(`Layers.Unshared`), a change of one setting shows on the way of its key and behind it,
and nowhere else.  Whatever stands elsewhere has a way of places that parts from that of
every section on the way, so that none of the cells that are changed can be reached from
it (`Layers.Unshared.before`).

Main result: the layer of the source has the value under the key, on other ways what it
had, and along the way the sections that it had, each with the next key; the other layers
are untouched, and what is read under other keys is the same (`Registry.changedAt_set`).
Watchers that are told of the change may make changes of their own, under any key; so after
the round this holds where they do not (`Registry.not_untouched_of_watcher`).
-/
import Winnow.Proofs.Settings.Mappings
import Winnow.Proofs.Settings.Nested
import Winnow.Proofs.Settings.ReadBack
import Winnow.Proofs.Store.Entering
import Winnow.Proofs.Store.Places

namespace Winnow

namespace Layers

variable {l l' : Layers} {s t u : Store} {source other : Source} {path q : List String}
  {value layer i : Item} {a : Nat}

/-! ### Layers that share nothing -/

/-- What places lead to in the layer of a source. -/
def partAt? (l : Layers) (s : Store) (places : List Nat) (source : Source) : Option Item :=
  (l source).bind fun layer => s.part? layer places

/-- No object is reached in two ways, in one layer or in two. -/
def Unshared (l : Layers) (s : Store) : Prop :=
  ∀ source other places others a, l.partAt? s places source = some (.object a) →
    l.partAt? s others other = some (.object a) → source = other ∧ places = others

/-- Objects share nothing that can be given places of their own: those of layers at the
beginning of a way in their source, and those in cells behind the places of the cells. -/
theorem unshared_of_places (place : Nat → Source × List Nat)
    (hlayers : ∀ source a, l source = some (.object a) → place a = (source, []))
    (hparts : ∀ b c n a, s.cell? b = some c → c.items[n]? = some (.object a) →
      place a = ((place b).1, (place b).2 ++ [n])) : l.Unshared s := by
  have hway (source : Source) (places : List Nat) : ∀ a,
      l.partAt? s places source = some (.object a) → place a = (source, places) := by
    induction places using List.reverseRecOn with
    | nil =>
      intro a h
      obtain ⟨layer, hlayer, h⟩ := Option.bind_eq_some_iff.mp h
      cases h
      exact hlayers source a hlayer
    | append_singleton places n ih =>
      intro a h
      obtain ⟨layer, hlayer, h⟩ := Option.bind_eq_some_iff.mp h
      rw [Store.part?_append] at h
      obtain ⟨j, hj, h⟩ := Option.bind_eq_some_iff.mp h
      rw [Store.part?_cons] at h
      obtain ⟨next, hnext, h⟩ := Option.bind_eq_some_iff.mp h
      cases h
      obtain ⟨c, hc, hn⟩ := Option.bind_eq_some_iff.mp hnext
      cases j with
      | scalar x => cases hc
      | object b =>
        have hb := ih b (by rw [partAt?, hlayer, Option.bind_some, hj])
        rw [hparts b c n a hc hn, hb]
  intro source other places others a h h'
  have heq := (hway source places a h).symm.trans (hway other others a h')
  exact ⟨congrArg Prod.fst heq, congrArg Prod.snd heq⟩

/-- **What leads to an object on a path lies on this path.**  From elsewhere, in the layer
or in another, the object is not reached. -/
theorem Unshared.before (h : l.Unshared s) {p : List String} (places : List Nat)
    (hp : l.itemAt? s p source = some (.object a)) (hq : l.itemAt? s q other = some i)
    (hreached : s.part? i places = some (.object a)) : other = source ∧ q <+: p := by
  obtain ⟨layer, hlayer, hfound⟩ := Option.bind_eq_some_iff.mp hp
  obtain ⟨layer', hlayer', hfound'⟩ := Option.bind_eq_some_iff.mp hq
  have hwhole {way : List Nat} (ha : s.part? layer way = some (.object a)) :
      l.partAt? s way source = some (.object a) := by rw [partAt?, hlayer, Option.bind_some, ha]
  have hfront {way : List Nat} (hi : s.part? layer' way = some i) :
      l.partAt? s (way ++ places) other = some (.object a) := by
    rw [partAt?, hlayer', Option.bind_some, Store.part?_append, hi, Option.bind_some, hreached]
  have hsame : other = source := by
    obtain ⟨way, hway⟩ := Store.exists_part?_of_find? hfound
    obtain ⟨way', hway'⟩ := Store.exists_part?_of_find? hfound'
    exact (h other source _ _ a (hfront hway') (hwhole hway)).1
  subst hsame
  cases hlayer.symm.trans hlayer'
  refine ⟨rfl, ?_⟩
  by_contra hpart
  obtain ⟨way', way, hway', hway, hparted⟩ :=
    Store.exists_parts_of_not_prefix hfound' hfound hpart
  obtain ⟨-, rfl⟩ := h other other _ _ a (hfront hway') (hwhole hway)
  exact hparted (List.prefix_append way' places)

theorem Unshared.ofLayer (h : l.Unshared s) (hlayer : l source = some layer) :
    s.Unshared layer := by
  have hway (p : List String) : l.itemAt? s p source = s.find? layer p := by
    rw [itemAt?, hlayer, Option.bind_some]
  intro p q a hp hq
  have hpq := (h.before [] ((hway q).trans hq) ((hway p).trans hp) rfl).2
  have hqp := (h.before [] ((hway p).trans hp) ((hway q).trans hq) rfl).2
  exact hpq.eq_of_length_le hqp.length_le

/-! ### What is changed -/

/-- A setting has been put into the layer of a source, and nothing else has been done to the
layers. -/
structure ChangedAt (l : Layers) (s : Store) (source : Source) (path : List String)
    (value : Item) (l' : Layers) (t : Store) : Prop where
  /-- The layer has the value under the path. -/
  there : l'.itemAt? t path source = some value
  /-- On other ways it has what it had, untouched. -/
  apart : ∀ q, ¬ q <+: path → ¬ path <+: q →
    l'.itemAt? t q source = l.itemAt? s q source ∧
      ∀ i, l.itemAt? s q source = some i → s.Untouched t i
  /-- Along the path it has the sections that it had, and new ones where it had none, with
  the next key of the path besides the entries that were there.  The keys are in the order in
  which they were, and the next one, if it is new, is the last. -/
  sections : ∀ q k, q ++ [k] <+: path → ∃ w next entries,
    l'.itemAt? t q source = some w ∧ l'.itemAt? t (q ++ [k]) source = some next ∧
      s.Extended (l.itemAt? s q source) k next t w ∧ t.entries? w = some entries ∧
      entries.map (·.1) = (((l.itemAt? s q source).bind s.entries?).getD []).map (·.1) ++
        if (Entries.find? (.text k) (((l.itemAt? s q source).bind s.entries?).getD [])).isSome
        then [] else [.text k]
  /-- The other layers are untouched. -/
  others : ∀ other, other ≠ source →
    l' other = l other ∧ ∀ i, l other = some i → s.Untouched t i

/-- A change in a layer that is there. -/
theorem changedAt_of_present (hs : s.Sound) (hl : l.Held s) (hun : l.Unshared s)
    (hlayer : l source = some layer) (hpath : path ≠ [])
    (h : s.assign value layer path = (.ok (), t)) : l.ChangedAt s source path value l t := by
  have hi := hl source layer hlayer
  have hassigned := Store.assign_assigned hs hi (hun.ofLayer hlayer) hpath h
  have hway (t : Store) (q : List String) : l.itemAt? t q source = t.find? layer q := by
    rw [itemAt?, hlayer, Option.bind_some]
  -- nothing that is changed is reached from elsewhere
  have huntouched {other : Source} {q : List String} {i : Item}
      (hq : l.itemAt? s q other = some i) (hpart : ¬ (other = source ∧ q <+: path)) :
      s.Untouched t i := by
    intro places a c hreached hc
    refine hassigned.frame a c hc fun p hp _ ha => hpart ?_
    obtain ⟨hsame, hbefore⟩ := hun.before places ((hway s p).trans ha) hq hreached
    exact ⟨hsame, hbefore.trans hp⟩
  refine ⟨?_, fun q hq hq' => ⟨?_, fun i hi => huntouched hi fun h => hq h.2⟩, fun q k hq => ?_,
    fun other hother => ⟨rfl, fun i hi => ?_⟩⟩
  · have hthere := hassigned.there []
    rwa [List.append_nil, ← hway t] at hthere
  · rw [hway, hway]
    exact hassigned.others q hq' hq
  · obtain ⟨w, next, hw, hnext, hextended⟩ :=
      Store.sections_of_assign hs hi (hun.ofLayer hlayer) hpath h hq
    rw [← hway s] at hextended
    obtain ⟨entries, hentries, hkeys⟩ := hextended.keys
    exact ⟨w, next, entries, (hway t q).trans hw, (hway t _).trans hnext, hextended, hentries,
      hkeys⟩
  · refine huntouched (q := []) ?_ fun h => hother h.1
    rw [itemAt?, hi, Option.bind_some]
    rfl

/-- A change in a layer that has been added for it. -/
theorem changedAt_of_absent (hensured : l.Ensured s source layer l' u)
    (hsource : l source = Option.none)
    (hlayer : layer = .object s.size) (hempty : u.entries? layer = some []) (hpath : path ≠ [])
    (h : u.assign value layer path = (.ok (), t)) : l.ChangedAt s source path value l' t := by
  have hnone (q : List String) : l.itemAt? s q source = Option.none := by
    rw [itemAt?, hsource, Option.bind_none]
  have hway (t : Store) (q : List String) : l'.itemAt? t q source = t.find? layer q := by
    rw [itemAt?, hensured.self, Option.bind_some]
  have hnil {q : List String} {w : Item} (hq : u.find? layer q = some w) : q = [] :=
    Store.eq_nil_of_find?_empty hempty hq
  have hun : u.Unshared layer := fun p q a hp hq => (hnil hp).trans (hnil hq).symm
  have hi := hensured.held source layer hensured.self
  have hassigned := Store.assign_assigned hensured.sound hi hun hpath h
  refine ⟨?_, fun q hq hq' => ⟨?_, fun i hi => ?_⟩, fun q k hq => ?_,
    fun other hother => ⟨hensured.others other hother, fun i hi places a c hreached hc => ?_⟩⟩
  · have hthere := hassigned.there []
    rwa [List.append_nil, ← hway t] at hthere
  · rw [hway, hnone, hassigned.others q hq' hq]
    refine Option.eq_none_iff_forall_ne_some.mpr fun w hw => hq ?_
    rw [hnil hw]
    exact List.nil_prefix
  · rw [hnone] at hi
    cases hi
  · obtain ⟨w, next, hw, hnext, hextended⟩ :=
      Store.sections_of_assign hensured.sound hi hun hpath h hq
    have hfresh : s.Extended (l.itemAt? s q source) k next t w := by
      rw [hnone]
      exact hextended.ofEmpty hempty s
    obtain ⟨entries, hentries, hkeys⟩ := hfresh.keys
    exact ⟨w, next, entries, (hway t q).trans hw, (hway t _).trans hnext, hfresh, hentries, hkeys⟩
  · refine hassigned.frame a c (hensured.grows a c hc) fun p _ _ hp => ?_
    cases hnil hp
    rw [hlayer] at hp
    cases hp
    exact Nat.lt_irrefl _ (Store.lt_size_of_cell? hc)

/-- **A change of one setting** in layers that share nothing. -/
theorem changedAt_of_assign (hs : s.Sound) (hl : l.Held s) (hun : l.Unshared s)
    (hpath : path ≠ []) (h : l.assign s source path value = (.ok (), l', t)) :
    l.ChangedAt s source path value l' t := by
  obtain ⟨layer, u, hensured, hassign⟩ := ensured_of_assign hs hl h
  rcases hensured.added with ⟨hlayer, rfl⟩ | ⟨hsource, hlayer, hempty⟩
  · have hsame : l' = l := by
      funext other
      by_cases hother : other = source
      · rw [hother, hensured.self, hlayer]
      · exact hensured.others other hother
    rw [hsame]
    exact changedAt_of_present hs hl hun hlayer hpath hassign
  · exact changedAt_of_absent hensured hsource hlayer hempty hpath hassign

namespace ChangedAt

/-- What has been added to the store since shows nowhere. -/
theorem growsTo (h : l.ChangedAt s source path value l' t) (ht : t.Sound) (hl' : l'.Held t)
    (hgrows : t.GrowsTo u) : l.ChangedAt s source path value l' u := by
  have hsame (q : List String) : l'.itemAt? u q source = l'.itemAt? t q source :=
    itemAt?_of_growsTo hgrows ht hl'
  refine ⟨(hsame path).trans h.there, fun q hq hq' => ?_, fun q k hq => ?_, fun other hother => ?_⟩
  · obtain ⟨heq, huntouched⟩ := h.apart q hq hq'
    exact ⟨(hsame q).trans heq, fun i hi => (huntouched i hi).growsTo hgrows⟩
  · obtain ⟨w, next, entries, hw, hnext, hextended, hentries, hkeys⟩ := h.sections q k hq
    exact ⟨w, next, entries, (hsame q).trans hw, (hsame _).trans hnext,
      ⟨hextended.same, hgrows.entries?_of_eq_some hextended.entries⟩,
      hgrows.entries?_of_eq_some hentries, hkeys⟩
  · obtain ⟨heq, huntouched⟩ := h.others other hother
    exact ⟨heq, fun i hi => (huntouched i hi).growsTo hgrows⟩

/-- In every layer the same is found on other ways. -/
theorem itemAt?_eq (h : l.ChangedAt s source path value l' t) (hs : s.Sound) (hl : l.Held s)
    (hq : ¬ q <+: path) (hq' : ¬ path <+: q) (other : Source) :
    l'.itemAt? t q other = l.itemAt? s q other := by
  by_cases hother : other = source
  · rw [hother]
    exact (h.apart q hq hq').1
  · obtain ⟨heq, huntouched⟩ := h.others other hother
    rw [itemAt?, itemAt?, heq]
    cases hlayer : l other with
    | none => rfl
    | some layer => exact (huntouched layer hlayer).find?_eq hs (hl other layer hlayer) q

/-- In every layer what is found on other ways is untouched. -/
theorem untouched (h : l.ChangedAt s source path value l' t) (hq : ¬ q <+: path)
    (hq' : ¬ path <+: q) (hi : l.itemAt? s q other = some i) : s.Untouched t i := by
  by_cases hother : other = source
  · rw [hother] at hi
    exact (h.apart q hq hq').2 i hi
  · obtain ⟨layer, hlayer, hfind⟩ := Option.bind_eq_some_iff.mp hi
    exact ((h.others other hother).2 layer hlayer).found hfind

end ChangedAt

end Layers

namespace Registry

open Setting (keyParts keyParts_ne_nil)

variable {r r₁ q : Registry} {n : Nat} {key : String} {path : List String} {value : Item}
  {source : Source}

/-- A setting has been put into the layer of a source, and shows on its own way only. -/
structure ChangedAt (r : Registry) (n : Nat) (path : List String) (value : Item)
    (source : Source) (q : Registry) : Prop where
  layers : (r.layers n).ChangedAt r.store source path value (q.layers n) q.store
  /-- On other ways the same is read, untouched. -/
  read : ∀ p, ¬ p <+: path → ¬ path <+: p →
    q.find? n p = r.find? n p ∧ (∀ default, q.get n p default = r.get n p default) ∧
      ∀ other i, r.find? n p = some (other, i) → r.store.Untouched q.store i

theorem changedAt_of_layers (hr : r.Sound)
    (h : (r.layers n).ChangedAt r.store source path value (q.layers n) q.store) :
    r.ChangedAt n path value source q := by
  refine ⟨h, fun p hp hp' => ?_⟩
  have hfind : q.find? n p = r.find? n p := Layers.find?_congr fun other =>
    Layers.at?_congr (h.itemAt?_eq hr.store (hr.layers n) hp hp' other)
  refine ⟨hfind, get_eq_of_find? hfind, fun other i hi => ?_⟩
  obtain ⟨hat, -⟩ := Layers.find?_eq_some_iff.mp hi
  exact h.untouched hp hp' (Layers.at?_eq_some_iff.mp hat).1

/-- **A change shows on the way of its key only.**  Let no object be reached in two ways in
the layers of settings.  When a setting has been put into the layer of a source, this layer
has the value under the key, along the key the sections that it had with their entries and
the next key, and on all other ways what it had; the other layers are untouched, and under
all keys that neither begin the key nor go on behind it the same is read.  This is so when
the setting has been put there, and after the round if no watcher made changes. -/
theorem changedAt_set [Stack] (hr : r.Reachable) (hn : n < r.settings.length)
    (hvalue : r.store.Holds value) (hun : (r.layers n).Unshared r.store)
    (hassign : r.assign n (keyParts key) value source = (.ok (), r₁)) :
    r.ChangedAt n (keyParts key) value source r₁ ∧
      (r₁.QuietRound n →
        r.ChangedAt n (keyParts key) value source (r.set n (keyParts key) value source).2) := by
  obtain ⟨l, s, hlayers, rfl⟩ := assign_eq_ok hassign
  have hsound := (assign_leadsTo hr.sound hvalue hassign).sound
  have hlayer : (r.setLayers n l s).layers n = l := by rw [layers_setLayers, if_pos hn]
  have hchanged : (r.layers n).ChangedAt r.store source (keyParts key) value
      ((r.setLayers n l s).layers n) (r.setLayers n l s).store := by
    rw [hlayer]
    exact Layers.changedAt_of_assign hr.sound.store (hr.sound.layers n) hun
      (keyParts_ne_nil key) hlayers
  refine ⟨changedAt_of_layers hr.sound hchanged, fun hquiet => changedAt_of_layers hr.sound ?_⟩
  have hkept := kept_set hr.sound hvalue hassign hquiet
  rw [hkept.layers]
  exact hchanged.growsTo hsound.store (hsound.layers n) hkept.grows

/-- The places of the objects in new settings: the section of the log, that of the filters,
that of the library, and the layer. -/
def freshPlace : Nat → Source × List Nat
  | 0 => (.defaults, [0, 0])
  | 1 => (.defaults, [0, 1])
  | 2 => (.defaults, [0])
  | _ => (.defaults, [])

theorem unshared_fresh : (fresh.layers 0).Unshared fresh.store := by
  refine Layers.unshared_of_places freshPlace (fun source a h => ?_) (fun b c n a hc hn => ?_)
  · cases source <;> cases h
    rfl
  · have hall : ∀ b < 4, ∀ c ∈ fresh.store.cell? b, ∀ n < c.items.length,
        ∀ a ∈ (c.items[n]?).bind Item.address?,
          freshPlace a = ((freshPlace b).1, (freshPlace b).2 ++ [n]) := by decide +kernel
    have hb : b < 4 := Store.lt_size_of_cell? hc
    refine hall b hb c hc n (List.getElem?_eq_some_iff.mp hn).1 a ?_
    rw [hn]
    rfl

/-- The key of a setting in a section that is not there yet. -/
def rotationKey : String := "resfilter.logging.rotation.days"

open scoped Stack in
/-- The new section comes behind the keys that are in the section of the log. -/
theorem changedAt_set_rotation :
    fresh.Reachable ∧ 0 < fresh.settings.length ∧ fresh.store.Holds (.scalar (.integer 7)) ∧
    (fresh.layers 0).Unshared fresh.store ∧
    ∃ r₁ q, fresh.assign 0 (keyParts rotationKey) (.scalar (.integer 7)) .defaults
        = (.ok (), r₁) ∧ r₁.QuietRound 0 ∧
      (fresh.set 0 (keyParts rotationKey) (.scalar (.integer 7)) .defaults).2 = q ∧
      fresh.ChangedAt 0 (keyParts rotationKey) (.scalar (.integer 7)) .defaults q ∧
      ∃ w entries, (q.layers 0).itemAt? q.store ["resfilter", "logging"] .defaults = some w ∧
        q.store.entries? w = some entries ∧
        entries.map (·.1) = [.text "level", .text "file", .text "rotation"] := by
  have hr : fresh.Reachable := .add _ _ _ .empty
  have hn : 0 < fresh.settings.length := by decide +kernel
  have hvalue : fresh.store.Holds (.scalar (.integer 7)) := trivial
  obtain ⟨r₁, hassign⟩ : ∃ r₁, fresh.assign 0 (keyParts rotationKey) (.scalar (.integer 7))
      .defaults = (.ok (), r₁) := exists_assign_of_set (by decide +kernel)
  have hpassive : ∀ name ∈ fresh.watchers 0, (fresh.reaction name).IsPassive :=
    fun name hname => absurd hname List.not_mem_nil
  have hquiet := (sameWatchers_assign hassign).quietRound hpassive
  have hchanged := (changedAt_set hr hn hvalue unshared_fresh hassign).2 hquiet
  obtain ⟨w, next, entries, hw, -, -, hentries, hkeys⟩ :=
    hchanged.layers.sections ["resfilter", "logging"] "rotation" (by decide +kernel)
  exact ⟨hr, hn, hvalue, unshared_fresh, r₁, _, hassign, hquiet, rfl, hchanged, w, entries, hw,
    hentries, hkeys⟩

open scoped Stack in
/-- **A watcher may change what is elsewhere.**  When it sets another key on being told of a
change, something else is read under that key after the round. -/
theorem not_untouched_of_watcher : ¬ ∀ (r : Registry) (n : Nat) (key other : String)
    (value : Item) (source : Source) (default : Item), r.Reachable → r.HasMappings n →
    (r.layers n).Unshared r.store → n < r.settings.length → r.store.Holds value →
    (r.set n (keyParts key) value source).1 = .ok () →
    ¬ keyParts other <+: keyParts key → ¬ keyParts key <+: keyParts other →
    (r.set n (keyParts key) value source).2.get n (keyParts other) default
      = r.get n (keyParts other) default := by
  intro hall
  have hmappings : reentrant.HasMappings 0 := by
    intro source layer hlayer
    cases source <;> cases hlayer
    rfl
  have hread := hall reentrant 0 "x" "y" (.scalar (.integer 1)) .runtime .null
    reachable_reentrant hmappings unshared_fresh (by decide +kernel) trivial (by decide +kernel)
    (by decide +kernel) (by decide +kernel)
  have hbefore : (reentrant.get 0 (keyParts "y") .null).isNull = true := by decide +kernel
  rw [← hread] at hbefore
  exact absurd hbefore (by decide +kernel)

end Registry

end Winnow
