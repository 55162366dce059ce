/-
Winnow/Proofs/Catalogue/Messages.lean

What is written while named definitions are read.

Each definition is read within a block of context with its name.  One message is
written in it, and then the block is closed, whatever came of the definition
(`noteBuilt_eq`, `noteRejected_eq`).  So the log of a whole mapping is a row of
records: one for each good definition in turn, and after them one for the first
that is bad, if there is one.  What comes after that is not read at all.

Main result: `load_of_debug`.
-/
import Winnow.Proofs.Catalogue.Loading
import Winnow.Proofs.Log.Receivers

namespace Winnow.Catalogue

open Log (Context Hub Level Logger Record)

variable {α : Type} [Shaped α] {channel : String} {h : Hub}

/-! ### Good and bad entries -/

/-- The name and the definition of an entry are both good. -/
def IsGood (e : Value × α) : Prop :=
  (∃ name, filterName e.1 = .ok name) ∧ ∃ d, Definition.ofValue e.2 = .ok d

/-- A fault is the first of an entry: that of its name, or that of its definition where
the name is good. -/
inductive FirstFault (e : Value × α) (fault : DefinitionFault) : Prop
  | name : filterName e.1 = .error fault → FirstFault e fault
  | definition {name : String} : filterName e.1 = .ok name →
      Definition.ofValue e.2 = .error fault → FirstFault e fault

theorem isGood_or_firstFault (e : Value × α) : IsGood e ∨ ∃ fault, FirstFault e fault := by
  cases hname : filterName e.1 with
  | error fault => exact .inr ⟨fault, .name hname⟩
  | ok name => cases hd : Definition.ofValue e.2 with
    | error fault => exact .inr ⟨fault, .definition hname hd⟩
    | ok d => exact .inl ⟨⟨name, hname⟩, d, hd⟩

theorem FirstFault.entry_eq {name : Value} {definition : α} {fault : DefinitionFault}
    (hfault : FirstFault (name, definition) fault) : entry name definition = .error fault := by
  unfold entry
  cases hfault with
  | name hname => rw [hname]; rfl
  | definition hname hd => rw [hname, ofDefinition_eq_error_iff.mpr hd]; rfl

theorem FirstFault.isReported {e : Value × Value} {fault : DefinitionFault}
    (hfault : FirstFault e fault) (hwritable : e.2.isWritable = true) : fault.IsReported := by
  cases hfault with
  | name hname => exact isReported_of_filterName hname
  | definition _ hd => exact isReported_of_ofValue hwritable hd

/-- Behind good entries comes one with a fault. -/
structure BadAfter (entries before : List (Value × α)) (name : Value) (definition : α)
    (fault : DefinitionFault) : Prop where
  split : ∃ after, entries = before ++ (name, definition) :: after
  good : ∀ e ∈ before, IsGood e
  fault : FirstFault (name, definition) fault

theorem allGood_or_badAfter (entries : List (Value × α)) : (∀ e ∈ entries, IsGood e) ∨
    ∃ before name definition fault, BadAfter entries before name definition fault := by
  induction entries with
  | nil => exact .inl (List.forall_mem_nil _)
  | cons e rest ih =>
    rcases isGood_or_firstFault e with he | ⟨fault, hfault⟩
    · rcases ih with hrest | ⟨before, name, definition, fault, ⟨after, rfl⟩, hbefore, hfault⟩
      · exact .inl (List.forall_mem_cons.mpr ⟨he, hrest⟩)
      · exact .inr ⟨e :: before, name, definition, fault, ⟨after, rfl⟩,
          List.forall_mem_cons.mpr ⟨he, hbefore⟩, hfault⟩
    · exact .inr ⟨[], e.1, e.2, fault, ⟨rest, rfl⟩, List.forall_mem_nil _, hfault⟩

theorem exists_forall₂_of_isGood {entries : List (Value × α)} (h : ∀ e ∈ entries, IsGood e) :
    ∃ c, List.Forall₂ Defines entries c :=
  exists_forall₂_defines fun e he => by
    obtain ⟨hname, d, hd⟩ := h e he
    exact ⟨hname, d, definition_ofValue_eq_ok_iff.mp hd⟩

/-! ### The records -/

/-- The record about a good definition. -/
def builtRecord (channel name : String) : Record where
  channel := channel
  level := Level.debug.number
  message := "Built filter | filter=" ++ name
  context := [("filter", .text name)]
  raised := none

/-- The records about good definitions, in their order. -/
def builtRecords (channel : String) (c : Catalogue) : List Record :=
  c.map fun f => builtRecord channel f.1

/-- The record about a bad definition. -/
def rejectedRecord (channel : String) (name : Value) (reason : String) : Record where
  channel := channel
  level := Level.warning.number
  message := "Rejected filter definition | filter=" ++ name.aloneText ++ " reason=" ++ reason
  context := [("filter", name), ("reason", .text reason)]
  raised := none

theorem noteBuilt_eq (hlevel : h.level channel = .ok .debug) (hblocks : h.blocks = [])
    (name : String) :
    noteBuilt channel h (.text name) = h.deliver (builtRecord channel name) := by
  have hcontext : (h.enter [(nameKey, .text name)]).contextWith [] = [("filter", .text name)] := by
    unfold Hub.contextWith Hub.enter
    rw [hblocks]
    rfl
  unfold noteBuilt
  rw [Hub.log_within hlevel (Nat.le_refl _) (by rw [hcontext]; rfl), hcontext]
  exact Hub.leave_enter _ _

theorem describe_rejected (name : Value) (reason : String) :
    Context.describe [("filter", name), ("reason", .text reason)] rejectedMessage
      = "Rejected filter definition | filter=" ++ name.aloneText ++ " reason=" ++ reason := by
  have htext : Context.text [("filter", name), ("reason", .text reason)]
      = "filter=" ++ name.aloneText ++ " " ++ ("reason=" ++ reason) := rfl
  have hstart : rejectedMessage ++ " | " ++ "filter="
      = "Rejected filter definition | filter=" := rfl
  have hreason : " " ++ "reason=" = " reason=" := rfl
  show rejectedMessage ++ " | " ++ _ = _
  rw [htext, ← hreason, ← hstart]
  simp only [String.append_assoc]

theorem noteRejected_eq {name : Value} (hlevel : h.level channel = .ok .debug)
    (hblocks : h.blocks = []) (hname : name.isWritable = true) (fault : DefinitionFault) :
    noteRejected channel h name fault = h.deliver (rejectedRecord channel name fault.message) := by
  have hcontext : (h.enter [(nameKey, name)]).contextWith [(reasonKey, .text fault.message)]
      = [("filter", name), ("reason", .text fault.message)] := by
    unfold Hub.contextWith Hub.enter
    rw [hblocks]
    rfl
  have hwritable : Log.Context.isWritable [("filter", name), ("reason", .text fault.message)]
      = true := by
    simp only [Log.Context.isWritable, List.all_cons, hname]
    rfl
  unfold noteRejected
  rw [Hub.log_within hlevel (by decide) (by rw [hcontext]; exact hwritable), hcontext,
    describe_rejected]
  exact Hub.leave_enter _ _

/-- The log after good definitions, by induction on them: a record for each. -/
theorem noteBuilt_foldl {entries : List (Value × α)} {c : Catalogue}
    (hall : List.Forall₂ Defines entries c) (hlevel : h.level channel = .ok .debug)
    (hblocks : h.blocks = []) :
    (entries.map (·.1)).foldl (noteBuilt channel) h
      = (builtRecords channel c).foldl Hub.deliver h := by
  induction hall generalizing h with
  | nil => rfl
  | @cons e f rest others hfirst _ ih =>
    have hnote : noteBuilt channel h e.1 = h.deliver (builtRecord channel f.1) := by
      rw [hfirst.key_eq, noteBuilt_eq hlevel hblocks]
    rw [List.map_cons, List.foldl_cons, hnote, builtRecords, List.map_cons, List.foldl_cons]
    exact ih (((Hub.servesLike_deliver h _).level_eq channel).trans hlevel)
      ((Hub.servesLike_deliver h _).blocks.trans hblocks)

/-! ### A whole mapping -/

section Whole

variable {entries before : List (Value × Value)} {name definition : Value}
  {fault : DefinitionFault} {l : Logger}

theorem load_of_isGood (hall : ∀ e ∈ entries, IsGood e) (hlevel : h.level l.channel = .ok .debug)
    (hblocks : h.blocks = []) : ∃ c, List.Forall₂ Defines entries c ∧
      load (Value.mapping entries) (some l) h
        = (.ok c, (builtRecords l.channel c).foldl Hub.deliver h) := by
  obtain ⟨c, hc⟩ := exists_forall₂_of_isGood hall
  refine ⟨c, hc, ?_⟩
  rw [← noteBuilt_foldl hc hlevel hblocks]
  exact (loadEntries_of_forall₂ hc h).eq (Hub.blocksAreWritable_of_eq_nil hblocks)

theorem load_of_badAfter (hat : BadAfter entries before name definition fault)
    (hwritable : (Value.mapping entries).isWritable = true)
    (hlevel : h.level l.channel = .ok .debug) (hblocks : h.blocks = []) :
    fault.IsReported ∧
    ∃ c, List.Forall₂ Defines before c ∧ load (Value.mapping entries) (some l) h
      = (.error (.badFilter name fault), ((builtRecords l.channel c)
          ++ [rejectedRecord l.channel name fault.message]).foldl Hub.deliver h) := by
  obtain ⟨⟨after, rfl⟩, hbefore, hfault⟩ := hat
  obtain ⟨hname, hdefinition⟩ := entriesAreWritable_iff.mp hwritable (name, definition)
    (List.mem_append_right _ List.mem_cons_self)
  have hreported : fault.IsReported := hfault.isReported hdefinition
  have hcode : fault.code?.isSome = true := by rw [hreported]; rfl
  obtain ⟨c, hc⟩ := exists_forall₂_of_isGood hbefore
  -- before the warning the log has the level and the blocks that it had at first
  have hlike := Hub.servesLike_foldl_deliver (builtRecords l.channel c) h
  have hlevel' := (hlike.level_eq l.channel).trans hlevel
  have hblocks' := hlike.blocks.trans hblocks
  have hopen := Hub.blocksAreWritable_of_eq_nil hblocks
  refine ⟨hreported, c, hc,
    ((loadEntries_of_bad hc hname hfault.entry_eq hcode h).eq hopen).trans ?_⟩
  rw [noteBuilt_foldl hc hlevel hblocks, noteRejected_eq hlevel' hblocks' hname, List.foldl_append]
  rfl

end Whole

/-- **Every definition that is read is logged**, where the logger takes all levels and no
block of context is open.  Good definitions give their filters in order, and a record for
each goes to the receivers.  Otherwise the first bad one is reported under its name, after
the records of those before it and a warning with the reason, whatever comes behind it.  No
block stays open. -/
theorem load_of_debug {entries : List (Value × Value)} {l : Logger} {h : Hub}
    (hwritable : (Value.mapping entries).isWritable = true)
    (hdistinct : Entries.DistinctKeys entries) (hlevel : h.level l.channel = .ok .debug)
    (hblocks : h.blocks = []) :
    ((∀ e ∈ entries, IsGood e) ∨
      ∃ before name definition fault, BadAfter entries before name definition fault) ∧
    ((∀ e ∈ entries, IsGood e) → ∃ c g, List.Forall₂ Defines entries c ∧ (c.map (·.1)).Nodup ∧
      load (Value.mapping entries) (some l) h = (.ok c, g) ∧
      g = (builtRecords l.channel c).foldl Hub.deliver h ∧
      Hub.Delivered (builtRecords l.channel c) h g) ∧
    (∀ before name definition fault, BadAfter entries before name definition fault →
      ∃ c g, List.Forall₂ Defines before c ∧
        load (Value.mapping entries) (some l) h = (.error (.badFilter name fault), g) ∧
        g = (builtRecords l.channel c ++ [rejectedRecord l.channel name fault.message]).foldl
          Hub.deliver h ∧
        Hub.Delivered (builtRecords l.channel c ++ [rejectedRecord l.channel name fault.message])
          h g ∧
        (DefinitionFault.badFilter name fault).message
          = "Invalid filter '" ++ name.aloneText ++ "': " ++ fault.message ∧
        fault.code? = some .invalidInput ∧
        (DefinitionFault.badFilter name fault).code? = fault.code?) ∧
    (load (Value.mapping entries) (some l) h).2.blocks = h.blocks := by
  refine ⟨allGood_or_badAfter entries, ?_, ?_, ?_⟩
  · intro hall
    obtain ⟨c, hc, hload⟩ := load_of_isGood hall hlevel hblocks
    exact ⟨c, _, hc, nodup_names hc hdistinct, hload, rfl, Hub.delivered_foldl_deliver _ h⟩
  · intro before name definition fault hat
    obtain ⟨hreported, c, hc, hload⟩ := load_of_badAfter hat hwritable hlevel hblocks
    exact ⟨c, _, hc, hload, rfl, Hub.delivered_foldl_deliver _ h, rfl, hreported, hreported.symm⟩
  · rcases allGood_or_badAfter entries with hall | ⟨before, name, definition, fault, hat⟩
    · obtain ⟨c, -, hload⟩ := load_of_isGood hall hlevel hblocks
      rw [hload]
      exact (Hub.servesLike_foldl_deliver _ h).blocks
    · obtain ⟨-, c, -, hload⟩ := load_of_badAfter hat hwritable hlevel hblocks
      rw [hload]
      exact (Hub.servesLike_foldl_deliver _ h).blocks

/-- A log with a handler that keeps records, and a logger that takes all levels. -/
def keeping : Hub × Logger :=
  let (n, h) := (Hub.initial .empty).addSink .capture
  match h.newLogger (.text "audit") (.text "debug") (some (.own [n])) with
  | (.ok l, h) => (h, l)
  | (.error _, h) => (h, ⟨0, .scalar .null, Log.rootName⟩)

/-- Definitions of which the second has a number for its name. -/
def numbered : List (Value × Value) :=
  [(.text "dots", .text "hidden"), (.integer 3, .text "hidden"), (.text "all", .text "shown")]

theorem load_of_debug_numbered :
    (Value.mapping numbered).isWritable = true ∧ Entries.DistinctKeys numbered ∧
    keeping.1.level keeping.2.channel = .ok .debug ∧ keeping.1.blocks = [] ∧
    ∃ h', load (Value.mapping numbered) (some keeping.2) keeping.1
        = (.error (.badFilter (.integer 3) (.nameNotText .integer)), h') ∧
      h'.records = [(0, builtRecord "audit" "dots"),
        (0, rejectedRecord "audit" (.integer 3) "Filter name must be string, got <class 'int'>")] ∧
      h'.blocks = [] := by
  have hwritable : (Value.mapping numbered).isWritable = true := by decide +kernel
  have hdistinct : Entries.DistinctKeys numbered := by
    unfold Entries.DistinctKeys numbered
    decide +kernel
  have hlevel : keeping.1.level keeping.2.channel = .ok .debug := rfl
  have hblocks : keeping.1.blocks = [] := rfl
  have hfirst : IsGood (α := Value) (.text "dots", .text "hidden") :=
    ⟨⟨"dots", rfl⟩, .preset .hidden, rfl⟩
  have hat : BadAfter numbered [(.text "dots", .text "hidden")] (.integer 3) (.text "hidden")
      (.nameNotText .integer) :=
    ⟨⟨_, rfl⟩, List.forall_mem_singleton.mpr hfirst, .name rfl⟩
  obtain ⟨-, -, hbad, hleft⟩ := load_of_debug hwritable hdistinct hlevel hblocks
  obtain ⟨c, g, hc, hload, -, hdelivered, -⟩ := hbad _ _ _ _ hat
  have hrecords : builtRecords keeping.2.channel c = [builtRecord "audit" "dots"] := by
    cases hc with
    | @cons _ f _ _ hdots hnil =>
      cases hnil
      have hread : filterName (.text "dots") = .ok "dots" := rfl
      have hname : f.1 = "dots" := Except.ok.inj (hdots.name.symm.trans hread)
      rw [builtRecords, List.map_singleton, hname]
      rfl
  rw [hrecords] at hdelivered
  rw [hload] at hleft
  exact ⟨hwritable, hdistinct, hlevel, hblocks, g, hload, hdelivered.records, hleft.trans hblocks⟩

end Winnow.Catalogue
