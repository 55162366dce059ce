/-
Winnow/Proofs/Catalogue/Names.lean

Names of filters as parts of keys.

The definition of a filter can be set under its name, behind the key of the section of
filters (`Setting.filterKey`).  A key is cut at its dots, and names may have dots.  So the
definition is set and read back under the key of every name; but a filter is built for it
only where the name has no dot.  A name with dots is cut, and what stands in the section of
filters is another section, under the part before the first dot.  This part is a name as
well (`filterName_front`), but the section is never a definition
(`exists_fault_of_section`), and so the filters are refused.

Main results: `loadFrom_of_set_filter`, and `not_loadFrom_of_dotted_name` for names with
dots.
-/
import Winnow.Proofs.Catalogue.Texts
import Winnow.Proofs.Settings.FirstSetting
import Winnow.Proofs.Text.Parts

namespace Winnow

open Shaped (shape)

/-! ### Keys of filters -/

namespace Setting

/-- The key under which the definition of a filter is set. -/
def filterKey (name : String) : String := rootSection ++ "." ++ filterSection ++ "." ++ name

theorem keyParts_filterKey (name : String) :
    keyParts (filterKey name) = filters ++ keyParts name := by
  have hparts : Text.parts '.' (rootSection ++ "." ++ filterSection) = filters := by decide
  show Text.parts '.' (rootSection ++ "." ++ filterSection ++ String.singleton '.' ++ name) = _
  rw [Text.parts_append, hparts]
  rfl

theorem keyParts_dotted {front : String} (hfront : '.' ∉ front.toList) (back : String) :
    keyParts (front ++ "." ++ back) = front :: keyParts back := by
  show Text.parts '.' (front ++ String.singleton '.' ++ back) = _
  rw [Text.parts_append, Text.parts_of_notMem hfront]
  rfl

end Setting

/-! ### Sections in the place of definitions -/

section Section

variable {α : Type} [Shaped α] {v next : α} {key : String}

theorem ofValue_of_unknownField (hv : shape v = .mapping [(.text key, next)])
    (hon : key ≠ Definition.onField) (hsteps : key ≠ Definition.stepsField) :
    Definition.ofValue v = .error (Definition.unknownFault [.text key]) := by
  have hunknown : Definition.unknownKeys [(Value.text key, next)] = [.text key] := by
    refine List.filter_eq_self.mpr (List.forall_mem_singleton.mpr ?_)
    rw [Bool.and_eq_true, bne_iff_ne, bne_iff_ne]
    exact ⟨fun heq => hon (Option.some.inj heq), fun heq => hsteps (Option.some.inj heq)⟩
  unfold Definition.ofValue
  rw [hv]
  dsimp only
  rw [hunknown]

theorem ofValue_of_noSelector (hv : shape v = .mapping [(.text Definition.onField, next)])
    (hname : (shape next).text?.bind Selector.ofName? = none)
    (hwritable : Shaped.isWritable next = true) :
    Definition.ofValue v = .error (.unknownSelector (Shaped.aloneText next)) := by
  have hselector : Definition.selectorOf [(Value.text Definition.onField, next)]
      = .error (.unknownSelector (Shaped.aloneText next)) := by
    unfold Definition.selectorOf
    rw [(Entries.find?_text_cons _ next []).1 rfl]
    dsimp only
    rw [hname, DefinitionFault.naming_of_isWritable hwritable]
  unfold Definition.ofValue
  rw [hv]
  dsimp only
  rw [unknownKeys_eq_nil_iff.mpr (List.forall_mem_singleton.mpr (.inl rfl)), hselector]
  rfl

theorem ofValue_of_noList (hv : shape v = .mapping [(.text Definition.stepsField, next)])
    (hnoList : ∀ items, shape next ≠ .list items) :
    Definition.ofValue v = .error .stepsNotList := by
  have hselector : Definition.selectorOf [(Value.text Definition.stepsField, next)]
      = .ok .names := by
    have hfields : Definition.stepsField ≠ Definition.onField := by decide
    have hne : Value.text Definition.stepsField ≠ .text Definition.onField := fun heq =>
      hfields (Option.some.inj (congrArg Value.text? heq))
    exact selectorOf_eq_ok_iff.mpr
      (.absent (Entries.find?_text_eq_none (List.forall_mem_singleton.mpr hne)))
  have hsteps : Definition.stepsOf [(Value.text Definition.stepsField, next)]
      = .error .stepsNotList := by
    unfold Definition.stepsOf
    rw [(Entries.find?_text_cons _ next []).1 rfl, Option.map_some]
    split
    · rename_i hnone
      cases hnone
    · rename_i items hitems
      exact absurd (Option.some.inj hitems) (hnoList items)
    · rfl
  unfold Definition.ofValue
  rw [hv]
  dsimp only
  rw [unknownKeys_eq_nil_iff.mpr (List.forall_mem_singleton.mpr (.inr rfl)), hselector, hsteps]
  rfl

theorem selector_ofName?_preset (p : Preset) : Selector.ofName? p.name = none := by
  cases p <;> decide

/-- A mapping whose only entry has the name of a preset or a mapping in it is no definition,
whatever the key is: a field that is not known, no selector, or no list of steps. -/
theorem exists_fault_of_section (hv : shape v = .mapping [(.text key, next)])
    (hnext : (∃ p : Preset, shape next = .scalar (.text p.name)) ∨
      ∃ entries, shape next = .mapping entries)
    (hwritable : Shaped.isWritable next = true) :
    ∃ fault, Chain.ofDefinition v = .error fault ∧ fault.code? = some .invalidInput := by
  by_cases hon : key = Definition.onField
  · subst hon
    have hname : (shape next).text?.bind Selector.ofName? = none := by
      rcases hnext with ⟨p, hp⟩ | ⟨entries, hentries⟩
      · rw [hp]
        exact selector_ofName?_preset p
      · rw [hentries]
        rfl
    exact ⟨_, ofDefinition_eq_error_iff.mpr (ofValue_of_noSelector hv hname hwritable), rfl⟩
  by_cases hsteps : key = Definition.stepsField
  · subst hsteps
    have hnoList (items : List α) : shape next ≠ .list items := by
      rcases hnext with ⟨p, hp⟩ | ⟨entries, hentries⟩
      · rw [hp]
        nofun
      · rw [hentries]
        nofun
    exact ⟨_, ofDefinition_eq_error_iff.mpr (ofValue_of_noList hv hnoList), rfl⟩
  · refine ⟨_, ofDefinition_eq_error_iff.mpr (ofValue_of_unknownField hv hon hsteps), ?_⟩
    have hkey : Value.areWritable [.text key] = true := rfl
    rw [Definition.unknownFault, if_pos hkey]
    rfl

end Section

namespace Catalogue

open Log (Hub Logger)
open Setting (filterKey keyParts keyParts_filterKey)

variable {r q : Registry} {n : Nat} {s : Store} {item : Item} {name front : String} {d : Definition}

/-- What is on the way to a definition is made of texts. -/
theorem ofTexts_of_oneWay {i : Item} {path : List String} (h : s.OneWay item i path)
    (hitem : (⟨s, item⟩ : Stored).OfTexts) : (⟨s, i⟩ : Stored).OfTexts := by
  induction path generalizing i with
  | nil =>
    cases h
    exact hitem
  | cons key rest ih =>
    obtain ⟨next, hentries, hway⟩ := h
    exact .mapping (Stored.shape_eq_mapping_iff.mpr ⟨_, hentries, rfl⟩)
      (List.forall_mem_singleton.mpr ⟨key, rfl⟩) (List.forall_mem_singleton.mpr (ih hway))

/-- What is on the way to a definition is the name of a preset or a mapping. -/
theorem preset_or_mapping_of_oneWay {i : Item} {path : List String} (h : s.OneWay item i path)
    (hd : IsDefinition (⟨s, item⟩ : Stored) d) :
    (∃ p : Preset, shape (⟨s, i⟩ : Stored) = .scalar (.text p.name)) ∨
      ∃ entries, shape (⟨s, i⟩ : Stored) = .mapping entries := by
  cases path with
  | nil =>
    cases h
    cases hd with
    | preset hv => exact .inl ⟨_, hv⟩
    | custom hv _ _ _ => exact .inr ⟨_, hv⟩
  | cons key rest =>
    obtain ⟨next, hentries, -⟩ := h
    exact .inr ⟨_, Stored.shape_eq_mapping_iff.mpr ⟨_, hentries, rfl⟩⟩

/-- Where the way from the section of filters to a definition is a name, the filter is built. -/
theorem loadFrom_of_name {source : Source} {i : Item}
    (hfind : q.find? n Setting.filters = some (source, i)) (hway : q.store.OneWay item i [name])
    (hname : filterName (.text name) = .ok name) (hd : IsDefinition (⟨q.store, item⟩ : Stored) d)
    (logger : Option Logger) (h : Hub) :
    ∃ h', Yields h (loadFrom q n logger h) (.ok [(name, d.chain)], h') := by
  obtain ⟨next, hentries, rfl⟩ := hway
  have hshape := Stored.shape_eq_mapping_iff.mpr ⟨_, hentries, rfl⟩
  have hdefines : List.Forall₂ Defines (Stored.entriesIn q.store [(.text name, next)])
      [(name, d.chain)] := .cons (exists_defines hname hd) .nil
  rw [loadFrom, definitionsIn_of_find? hfind]
  exact load_of_forall₂ hshape hdefines logger h

/-- Where the way leads through a section under a name, the filters are refused with this name. -/
theorem loadFrom_of_section {source : Source} {i : Item} {key : String} {rest : List String}
    (hfind : q.find? n Setting.filters = some (source, i))
    (hway : q.store.OneWay item i (front :: key :: rest))
    (hfront : filterName (.text front) = .ok front) (hs : q.store.Sound)
    (hd : IsDefinition (⟨q.store, item⟩ : Stored) d) :
    ∃ fault, fault.code? = some .invalidInput ∧ ∀ (logger : Option Logger) (h : Hub),
      ∃ h', Yields h (loadFrom q n logger h) (.error (.badFilter (.text front) fault), h') := by
  obtain ⟨inner, hentries, next, hinner, hrest⟩ := hway
  have htexts := ofTexts_of_oneWay hrest (Stored.ofTexts_of_isDefinition hs hd)
  obtain ⟨fault, hfault, hcode⟩ := exists_fault_of_section
    (Stored.shape_eq_mapping_iff.mpr ⟨_, hinner, rfl⟩) (preset_or_mapping_of_oneWay hrest hd)
    (Stored.isWritable_of_ofTexts htexts)
  refine ⟨fault, hcode, fun logger h => ?_⟩
  have hshape : shape (⟨q.store, i⟩ : Stored)
      = .mapping ([] ++ [(.text front, ⟨q.store, inner⟩)]) :=
    Stored.shape_eq_mapping_iff.mpr ⟨_, hentries, rfl⟩
  have hbad : entry (.text front) (⟨q.store, inner⟩ : Stored) = .error fault := by
    unfold entry
    rw [hfront, hfault]
    rfl
  rw [loadFrom, definitionsIn_of_find? hfind]
  exact load_of_bad hshape .nil rfl hbad (by rw [hcode]; rfl) logger h

/-! ### Setting a definition under its name -/

theorem isNull_of_isDefinition (hs : s.Sound) (hd : IsDefinition (⟨s, item⟩ : Stored) d) :
    item.isNull = false := by
  rcases Stored.entries_of_isDefinition hs hd with ⟨p, rfl⟩ | ⟨own, hown, -⟩
  · rfl
  · obtain ⟨a, rfl, -⟩ := Store.entries?_eq_some_iff.mp hown
    rfl

/-- A key is not too deep if a name is in it. -/
theorem length_keyParts_filterKey (hname : filterName (.text name) = .ok name) :
    (keyParts (filterKey name)).length ≤ nameLimit + 3 := by
  obtain ⟨-, -, hlength⟩ := filterName_eq_ok_iff.mp hname
  have hparts := Text.length_parts_le '.' name
  have hfilters : Setting.filters.length = 2 := rfl
  rw [keyParts_filterKey, List.length_append, hfilters]
  show 2 + (Text.parts '.' name).length ≤ _
  omega

/-- What new settings come to when a definition is set in them under the key of a name: it is
found there, in sections that have nothing else in them. -/
structure SetUnderName (n : Nat) (name : String) (s : Store) (item : Item) (q : Registry) :
    Prop where
  found : q.find? n (keyParts (filterKey name)) = some (.runtime, item)
  grows : s.GrowsTo q.store
  sound : q.store.Sound
  filters : ∃ i, q.find? n Setting.filters = some (.runtime, i) ∧
    q.store.OneWay item i (keyParts name)

theorem exists_set_underName [Stack] {f : Files} (hr : r.Reachable)
    (hadd : r.add f none none = (.ok n, q))
    (hgrows : q.store.GrowsTo s) (hs : s.Sound) (hitem : s.Holds item)
    (hname : filterName (.text name) = .ok name) (hd : IsDefinition (⟨s, item⟩ : Stored) d) :
    ∃ q', ({ q with store := s } : Registry).set n (keyParts (filterKey name)) item .runtime
        = (.ok (), q') ∧ SetUnderName n name s item q' := by
  have hfresh := (Registry.fresh_of_add hr.sound hadd).withStore hgrows hs
  have hlength := length_keyParts_filterKey hname
  have hdepth : 1 + (keyParts (filterKey name)).length ≤ Stack.mappings :=
    Stack.le_mappings (by omega)
  obtain ⟨q', hset, hfirst⟩ := hfresh.exists_set hitem (Stored.nestsWithin_of_isDefinition hs hd)
    (Setting.keyParts_ne_nil _) hdepth (show Source.runtime ≠ .defaults by decide)
  have hleads := Registry.set_leadsTo hfresh.sound hitem n (keyParts (filterKey name)) .runtime
  have hsound := hleads.sound
  rw [hset] at hsound
  refine ⟨q', hset, ?_, hfirst.grows, hsound.store, ?_⟩
  · rw [← List.append_nil (keyParts _)] at hfirst
    obtain ⟨i, rfl, hfind⟩ := hfirst.exists_find? hfresh (by decide)
    exact hfind (isNull_of_isDefinition hs hd)
  · rw [keyParts_filterKey] at hfirst
    obtain ⟨i, hway, hfind⟩ := hfirst.exists_find? hfresh (by decide)
    obtain ⟨entries, hentries⟩ :=
      Option.isSome_iff_exists.mp (hway.isSome_entries? (Setting.keyParts_ne_nil name))
    obtain ⟨a, rfl, -⟩ := Store.entries?_eq_some_iff.mp hentries
    exact ⟨_, hfind rfl, hway⟩

namespace SetUnderName

theorem isDefinition (h : SetUnderName n name s item q) (hs : s.Sound) (hitem : s.Holds item)
    (hd : IsDefinition (⟨s, item⟩ : Stored) d) : IsDefinition (⟨q.store, item⟩ : Stored) d := by
  have hgrown : Stored.Outgrown ⟨s, item⟩ ⟨q.store, item⟩ := ⟨hs, hitem, h.grows, rfl⟩
  exact Stored.keepsShapes_outgrown.isDefinition hgrown hd

/-- A name without dots is the key of its filter. -/
theorem loadFrom (h : SetUnderName n name s item q) (hs : s.Sound) (hitem : s.Holds item)
    (hd : IsDefinition (⟨s, item⟩ : Stored) d) (hname : filterName (.text name) = .ok name)
    (hdot : '.' ∉ name.toList) (logger : Option Logger) (hub : Hub) :
    ∃ hub', Yields hub (Catalogue.loadFrom q n logger hub) (.ok [(name, d.chain)], hub') := by
  obtain ⟨i, hfind, hway⟩ := h.filters
  have hparts : keyParts name = [name] := Text.parts_of_notMem hdot
  rw [hparts] at hway
  exact loadFrom_of_name hfind hway hname (h.isDefinition hs hitem hd) logger hub

/-- A name with dots is cut at the first of them. -/
theorem exists_fault {back : String} (h : SetUnderName n (front ++ "." ++ back) s item q)
    (hs : s.Sound) (hitem : s.Holds item) (hd : IsDefinition (⟨s, item⟩ : Stored) d)
    (hname : filterName (.text (front ++ "." ++ back)) = .ok (front ++ "." ++ back))
    (hfront : '.' ∉ front.toList) :
    ∃ fault, fault.code? = some .invalidInput ∧ ∀ (logger : Option Logger) (hub : Hub),
      ∃ hub', Yields hub (Catalogue.loadFrom q n logger hub)
        (.error (.badFilter (.text front) fault), hub') := by
  obtain ⟨i, hfind, hway⟩ := h.filters
  obtain ⟨key, rest, hrest⟩ := List.exists_cons_of_ne_nil (Setting.keyParts_ne_nil back)
  rw [Setting.keyParts_dotted hfront, hrest] at hway
  exact loadFrom_of_section hfind hway (filterName_front hname) h.sound (h.isDefinition hs hitem hd)

end SetUnderName

/-- **A definition that is set under a name.**  Let a definition be set in new settings under the
key of a name.  Then it is found there, and is what it was.  If the name has no dot, loading the
filters gives the filter of this name and no other.  If it has one, the filters are refused,
because of the section under what stands before the first dot.  In both cases what comes of
loading may also be that an open block of context cannot be written. -/
theorem loadFrom_of_set_filter [Stack] {f : Files} (hr : r.Reachable)
    (hadd : r.add f none none = (.ok n, q)) (hgrows : q.store.GrowsTo s) (hs : s.Sound)
    (hitem : s.Holds item) (hname : filterName (.text name) = .ok name)
    (hd : Definition.ofValue (⟨s, item⟩ : Stored) = .ok d) :
    ∃ chain q', Chain.ofDefinition (⟨s, item⟩ : Stored) = .ok chain ∧
      ({ q with store := s } : Registry).set n (keyParts (filterKey name)) item .runtime
        = (.ok (), q') ∧
      s.GrowsTo q'.store ∧ q'.find? n (keyParts (filterKey name)) = some (.runtime, item) ∧
      (∀ default, q'.get n (keyParts (filterKey name)) default = item) ∧
      ('.' ∉ name.toList →
        ∀ logger h, ∃ h', Yields h (loadFrom q' n logger h) (.ok [(name, chain)], h')) ∧
      ∀ front back, name = front ++ "." ++ back → '.' ∉ front.toList →
        ∃ fault, fault.code? = some .invalidInput ∧
          ∀ logger h, ∃ h', Yields h (loadFrom q' n logger h)
            (.error (.badFilter (.text front) fault), h') := by
  have hdefinition := definition_ofValue_eq_ok_iff.mp hd
  have hchain := (ofDefinition_of_isDefinition hdefinition).trans (definition_build_eq d)
  obtain ⟨q', hset, hunder⟩ := exists_set_underName hr hadd hgrows hs hitem hname hdefinition
  refine ⟨d.chain, q', hchain, hset, hunder.grows, hunder.found, Registry.get_of_find? hunder.found,
    fun hdot => hunder.loadFrom hs hitem hdefinition hname hdot, ?_⟩
  rintro front back rfl hfront
  exact hunder.exists_fault hs hitem hdefinition hname hfront

/-- The definition of a filter with one step. -/
def ofNotes : Value :=
  .mapping [(.text "on", .text "paths"),
    (.text "steps", .list [.mapping [(.text "ending", .list [.text ".md", .text ".txt"])]])]

theorem proper_ofNotes : ofNotes.Proper :=
  ⟨Entries.distinctKeys_pair (by decide), trivial,
    ⟨⟨List.pairwise_singleton _ _, ⟨trivial, trivial, trivial⟩, trivial⟩, trivial⟩, trivial⟩

open scoped Stack in
/-- The definition is set in settings without a file and without the environment, and is built. -/
theorem loadFrom_of_set_filter_notes :
    Registry.empty.add .empty none none = (.ok 0, Registry.atStart) ∧
    filterName (.text "my-notes") = .ok "my-notes" ∧
    ∃ s item chain q', Registry.atStart.store.place ofNotes = (item, s) ∧
      Chain.ofDefinition (⟨s, item⟩ : Stored) = .ok chain ∧
      ({ Registry.atStart with store := s } : Registry).set 0
        (keyParts "resfilter.filters.my-notes") item .runtime = (.ok (), q') ∧
      (∀ default, q'.get 0 (keyParts "resfilter.filters.my-notes") default = item) ∧
      ∀ logger h, ∃ h', Yields h (loadFrom q' 0 logger h) (.ok [("my-notes", chain)], h') := by
  have hadd : Registry.empty.add .empty none none = (.ok 0, Registry.atStart) := rfl
  have hname : filterName (.text "my-notes") = .ok "my-notes" :=
    filterName_eq_ok_iff.mpr ⟨rfl, by decide, by decide⟩
  have hsound := (Registry.Reachable.add .empty none none .empty).sound.store
  obtain ⟨hadds, hheld⟩ := Registry.atStart.store.place_addsTo ofNotes proper_ofNotes
  have hd : Definition.ofValue (⟨(Registry.atStart.store.place ofNotes).2,
      (Registry.atStart.store.place ofNotes).1⟩ : Stored)
        = .ok (.custom .paths [⟨⟨.ends, false⟩, [".md", ".txt"]⟩]) := by rfl
  obtain ⟨chain, q', hchain, hset, -, -, hget, hload, -⟩ := loadFrom_of_set_filter .empty hadd
    hadds.growsTo (hadds.sound hsound) hheld hname hd
  exact ⟨hadd, hname, _, _, chain, q', rfl, hchain, hset, hget, hload (by decide)⟩

open scoped Stack in
/-- **A name with dots does not name its filter.**  Under such a name the definition is not
built. -/
theorem not_loadFrom_of_dotted_name : ¬ ∀ (r q : Registry) (f : Files) (n : Nat) (s : Store)
    (item : Item) (name : String) (d : Definition), r.Reachable → r.add f none none = (.ok n, q) →
    q.store.GrowsTo s → s.Sound → s.Holds item → filterName (.text name) = .ok name →
    Definition.ofValue (⟨s, item⟩ : Stored) = .ok d →
    ∃ chain q', Chain.ofDefinition (⟨s, item⟩ : Stored) = .ok chain ∧
      ({ q with store := s } : Registry).set n (keyParts (filterKey name)) item .runtime
        = (.ok (), q') ∧
      ∀ logger h, h.BlocksAreWritable →
        ∃ h', loadFrom q' n logger h = (.ok [(name, chain)], h') := by
  intro hall
  have hadd : Registry.empty.add .empty none none = (.ok 0, Registry.atStart) := rfl
  have hsound := (Registry.Reachable.add .empty none none .empty).sound.store
  have hname : filterName (.text ("a" ++ "." ++ "b")) = .ok ("a" ++ "." ++ "b") :=
    filterName_eq_ok_iff.mpr ⟨rfl, by decide, by decide⟩
  have hd : IsDefinition (⟨Registry.atStart.store, .scalar (.text "hidden")⟩ : Stored)
    (.preset .hidden) := .preset rfl
  have hitem : Registry.atStart.store.Holds (.scalar (.text "hidden")) := trivial
  obtain ⟨chain, q₁, -, hset₁, hload⟩ := hall _ _ _ _ _ _ _ _ .empty hadd (.refl _) hsound hitem
    hname (definition_ofValue_eq_ok_iff.mpr hd)
  obtain ⟨q₂, hset₂, hunder⟩ := exists_set_underName .empty hadd (.refl _) hsound hitem hname hd
  cases hset₁.symm.trans hset₂
  obtain ⟨fault, -, hfails⟩ := hunder.exists_fault hsound hitem hd hname (by decide)
  have hblocks := Hub.blocksAreWritable_of_eq_nil (h := Hub.initial .empty) rfl
  obtain ⟨h₁, hok⟩ := hload none (Hub.initial .empty) hblocks
  obtain ⟨h₂, herror⟩ := hfails none (Hub.initial .empty)
  cases hok.symm.trans (herror.eq hblocks)

end Catalogue

end Winnow
