/-
Winnow/Proofs/Catalogue/Loading.lean

What comes of reading named definitions.

Each entry is read for itself, and the log does not count for what is built.  So
where every name and every definition is good, there is exactly one filter for
each entry, in order, under its name (`load_of_forall₂`).  Only where a value of
an open block of context cannot be written into the messages may it happen that
the reading fails for that (`Yields`).
-/
import Winnow.Catalogue
import Winnow.Proofs.Definition.Alike
import Winnow.Proofs.Definition.FilterNames
import Winnow.Proofs.Log.Delivery
import Winnow.Proofs.Log.Handlers

namespace Winnow

open Shaped (shape)

variable {α : Type} [Shaped α]

/-! ### Named definitions -/

/-- A value is a mapping from names of filters to definitions. -/
def IsCatalogue (v : α) : Prop :=
  ∃ entries, shape v = .mapping entries ∧ ∀ e ∈ entries,
    (∃ name, filterName e.1 = .ok name) ∧ ∃ d, IsDefinition e.2 d

namespace Catalogue

open Log (Hub Logger)

/-- An entry defines a filter under a name. -/
structure Defines (e : Value × α) (f : String × Chain) : Prop where
  name : filterName e.1 = .ok f.1
  chain : Chain.ofDefinition e.2 = .ok f.2

variable {entries : List (Value × α)} {c : Catalogue} {channel : String}

theorem Defines.key_eq {e : Value × α} {f : String × Chain} (h : Defines e f) : e.1 = .text f.1 :=
  text_of_filterName h.name

theorem exists_defines {e : Value × α} {name : String} {d : Definition}
    (hname : filterName e.1 = .ok name) (hd : IsDefinition e.2 d) :
    Defines e (name, d.chain) :=
  ⟨hname, (ofDefinition_of_isDefinition hd).trans (definition_build_eq d)⟩

theorem exists_forall₂_defines (h : ∀ e ∈ entries, (∃ name, filterName e.1 = .ok name) ∧
    ∃ d, IsDefinition e.2 d) : ∃ c, List.Forall₂ Defines entries c := by
  induction entries with
  | nil => exact ⟨[], .nil⟩
  | cons e rest ih =>
    obtain ⟨⟨⟨name, hname⟩, d, hd⟩, hrest⟩ := List.forall_mem_cons.mp h
    obtain ⟨c, hc⟩ := ih hrest
    exact ⟨_ :: c, .cons (exists_defines hname hd) hc⟩

/-- An entry whose definition looks alike defines the same filter. -/
theorem Defines.of_alike {β : Type} [Shaped β] {R : α → β → Prop} (hR : KeepsShapes R) {v : α}
    {w : β} {key : Value} {f : String × Chain} (h : Defines (key, v) f) (hvw : R v w) :
    Defines (key, w) f := by
  obtain ⟨d, hd⟩ := ofDefinition_isOk_iff.mp ⟨f.2, h.chain⟩
  have hchain : Chain.ofDefinition v = d.build := ofDefinition_of_isDefinition hd
  refine ⟨h.name, ?_⟩
  rw [ofDefinition_of_isDefinition (hR.isDefinition hvw hd), ← hchain]
  exact h.chain

/-- The names of the filters are the keys of their entries. -/
theorem keys_of_forall₂_defines (h : List.Forall₂ Defines entries c) :
    entries.map (·.1) = c.map fun f => Value.text f.1 := by
  induction h with
  | nil => rfl
  | cons hfirst _ ih => rw [List.map_cons, List.map_cons, ih, hfirst.key_eq]

/-- No two filters of a mapping have the same name. -/
theorem nodup_names (h : List.Forall₂ Defines entries c)
    (hdistinct : Entries.DistinctKeys entries) : (c.map (·.1)).Nodup := by
  have hkeys : (entries.map (·.1)).Pairwise fun k l => k.sameKey l = false :=
    List.pairwise_map.mpr hdistinct
  rw [keys_of_forall₂_defines h, List.pairwise_map] at hkeys
  refine List.pairwise_map.mpr (hkeys.imp fun {f g} hne heq => ?_)
  rw [sameKey_text_iff.mpr (congrArg Value.text heq)] at hne
  cases hne

/-! ### Reading them -/

/-- Reading comes to what is expected, unless a value of an open block of context cannot be written
into a message and the reading fails for that. -/
def Yields {β : Type} (h : Hub) (result expected : Except DefinitionFault β × Hub) : Prop :=
  result = expected ∨ ¬h.BlocksAreWritable ∧ result.1 = .error .longInteger

theorem Yields.eq {β : Type} {h : Hub} {result expected : Except DefinitionFault β × Hub}
    (hyields : Yields h result expected) (hblocks : h.BlocksAreWritable) : result = expected :=
  hyields.resolve_right fun hfailed => hfailed.1 hblocks

/-- The log after the message about a good definition. -/
def noteBuilt (channel : String) (h : Hub) (name : Value) : Hub :=
  ((h.enter [(nameKey, name)]).log channel .debug builtMessage []).2.leave

/-- The log after the message about a bad definition. -/
def noteRejected (channel : String) (h : Hub) (name : Value) (fault : DefinitionFault) : Hub :=
  ((h.enter [(nameKey, name)]).log channel .warning rejectedMessage
    [(reasonKey, .text fault.message)]).2.leave

theorem blocks_noteBuilt (channel : String) (h : Hub) (name : Value) :
    (noteBuilt channel h name).blocks = h.blocks :=
  h.blocks_leave_log [(nameKey, name)] channel .debug builtMessage []

/-- A message about a definition whose name can be written fails only for what is open around. -/
theorem ok_or_of_enter {name : Value} {level : Log.Level} {message : String} {own : Log.Context}
    (hname : name.isWritable = true) (hown : own.isWritable = true) (h : Hub) :
    ((h.enter [(nameKey, name)]).log channel level message own).1 = .ok ()
      ∨ ¬h.BlocksAreWritable :=
  (Hub.log_ok_or hown).imp_right fun hnot hblocks =>
    hnot (Hub.blocksAreWritable_enter hblocks (by simpa [Log.Context.isWritable] using hname))

theorem loadEntry_of_defines {e : Value × α} {f : String × Chain} (hdefines : Defines e f)
    (h : Hub) : Yields h (loadEntry channel e.1 e.2 h) (.ok f, noteBuilt channel h e.1) := by
  have hentry : entry e.1 e.2 = .ok f := by
    unfold entry
    rw [hdefines.name, hdefines.chain]
    rfl
  have hwritable : e.1.isWritable = true := by rw [hdefines.key_eq]; rfl
  have hlog : ((h.enter [(nameKey, e.1)]).log channel .debug builtMessage []).1 = .ok ()
      ∨ ¬h.BlocksAreWritable := ok_or_of_enter hwritable rfl h
  unfold loadEntry Yields noteBuilt
  rw [hentry]
  dsimp only
  generalize (h.enter [(nameKey, e.1)]).log channel .debug builtMessage [] = written at hlog ⊢
  rcases written with ⟨_ | _, g⟩
  · exact .inr ⟨hlog.resolve_left nofun, rfl⟩
  · exact .inl rfl

/-- Where the first entry fails, nothing behind it is read. -/
theorem loadEntries_cons_of_error {e : Value × α} {rest : List (Value × α)} {h : Hub}
    {fault : DefinitionFault} (hfailed : (loadEntry channel e.1 e.2 h).1 = .error fault) :
    loadEntries channel (e :: rest) h = (.error fault, (loadEntry channel e.1 e.2 h).2) := by
  rw [loadEntries]
  generalize loadEntry channel e.1 e.2 h = loaded at hfailed ⊢
  rcases loaded with ⟨outcome, g⟩
  cases hfailed
  rfl

/-- What comes of a row of entries comes of the first and of those behind it. -/
theorem Yields.cons {e : Value × α} {rest : List (Value × α)} {f : String × Chain} {h g g' : Hub}
    {outcome : Except DefinitionFault Catalogue}
    (hfirst : Yields h (loadEntry channel e.1 e.2 h) (.ok f, g)) (hblocks : g.blocks = h.blocks)
    (hrest : Yields g (loadEntries channel rest g) (outcome, g')) :
    Yields h (loadEntries channel (e :: rest) h) (outcome.map (f :: ·), g') := by
  rcases hfirst with heq | ⟨hnot, hfailed⟩
  · rw [loadEntries, heq]
    dsimp only
    rcases hrest with heq | ⟨hnot, hfailed⟩
    · rw [heq]
      cases outcome <;> exact .inl rfl
    · refine .inr ⟨fun hwritable => hnot (hwritable.congr hblocks), ?_⟩
      generalize loadEntries channel rest g = loaded at hfailed ⊢
      rcases loaded with ⟨found, g₁⟩
      cases hfailed
      rfl
  · exact .inr ⟨hnot, congrArg Prod.fst (loadEntries_cons_of_error hfailed)⟩

/-- Good definitions are all read, by induction on what is left of them. -/
theorem loadEntries_of_forall₂ (hall : List.Forall₂ Defines entries c) (h : Hub) :
    Yields h (loadEntries channel entries h)
      (.ok c, (entries.map (·.1)).foldl (noteBuilt channel) h) := by
  induction hall generalizing h with
  | nil => exact .inl rfl
  | @cons e f rest others hfirst _ ih =>
    exact (loadEntry_of_defines hfirst h).cons (blocks_noteBuilt channel h e.1) (ih _)

/-- Whatever logger the messages go to, the same comes of a mapping of definitions as
of its entries. -/
theorem load_of_entries {definitions : α} {outcome : Except DefinitionFault Catalogue}
    (hshape : shape definitions = .mapping entries)
    (hall : ∀ channel h, ∃ h', Yields h (loadEntries channel entries h) (outcome, h'))
    (logger : Option Logger) (h : Hub) :
    ∃ h', Yields h (load definitions logger h) (outcome, h') := by
  have hloadOn (channel : String) (h : Hub) :
      ∃ h', Yields h (loadOn channel definitions h) (outcome, h') := by
    unfold loadOn
    rw [hshape]
    exact hall channel h
  cases logger with
  | some l => exact hloadOn l.channel h
  | none =>
    have hblocks := h.blocks_globalLogger Hub.defaultName
    unfold load
    dsimp only
    generalize h.globalLogger Hub.defaultName = found at hblocks ⊢
    rcases found with ⟨_ | l, g⟩
    all_goals
      obtain ⟨h', hyields⟩ := hloadOn _ g
      exact ⟨h', hyields.imp_right (And.imp_left fun hnot hw => hnot (hw.congr hblocks))⟩

/-- **Good definitions give one filter each**, whatever logger the messages go
to. -/
theorem load_of_forall₂ {definitions : α} (hshape : shape definitions = .mapping entries)
    (hall : List.Forall₂ Defines entries c) (logger : Option Logger) (h : Hub) :
    ∃ h', Yields h (load definitions logger h) (.ok c, h') :=
  load_of_entries hshape (fun _ h => ⟨_, loadEntries_of_forall₂ hall h⟩) logger h

theorem defines_of_loadEntry {e : Value × α} {f : String × Chain} {h h' : Hub}
    (hload : loadEntry channel e.1 e.2 h = (.ok f, h')) : Defines e f := by
  unfold loadEntry at hload
  dsimp only at hload
  split at hload
  · rename_i built hentry
    split at hload
    · cases hload
      obtain ⟨name, hname, hentry⟩ := except_bind_eq_ok_iff.mp hentry
      obtain ⟨chain, hchain, hentry⟩ := except_bind_eq_ok_iff.mp hentry
      cases hentry
      exact ⟨hname, hchain⟩
    · cases hload
  · split at hload
    · cases hload
    · split at hload <;> cases hload

theorem forall₂_of_loadEntries {h h' : Hub}
    (hload : loadEntries channel entries h = (.ok c, h')) : List.Forall₂ Defines entries c := by
  induction entries generalizing c h with
  | nil =>
    cases hload
    exact .nil
  | cons e rest ih =>
    rw [loadEntries] at hload
    split at hload
    · cases hload
    · rename_i hfirst
      split at hload
      · cases hload
      · rename_i hrest
        cases hload
        exact .cons (defines_of_loadEntry hfirst) (ih hrest)

/-- **Filters come of good definitions only**, and of all of them. -/
theorem forall₂_of_load {definitions : α} {logger : Option Logger} {h h' : Hub}
    (hload : load definitions logger h = (.ok c, h')) :
    ∃ entries, shape definitions = .mapping entries ∧ List.Forall₂ Defines entries c := by
  have hloadOn {channel : String} {g : Hub}
      (hload : loadOn channel definitions g = (.ok c, h')) :
      ∃ entries, shape definitions = .mapping entries ∧ List.Forall₂ Defines entries c := by
    unfold loadOn at hload
    split at hload
    · exact ⟨_, ‹_›, forall₂_of_loadEntries hload⟩
    · cases hload
  unfold load at hload
  split at hload
  · exact hloadOn hload
  · split at hload <;> exact hloadOn hload

/-! ### A bad definition -/

section Bad

variable {before after : List (Value × α)} {name : Value} {definition : α}
  {fault : DefinitionFault}

theorem loadEntry_of_bad (hname : name.isWritable = true)
    (hbad : entry name definition = .error fault) (hcode : fault.code?.isSome = true) (h : Hub) :
    Yields h (loadEntry channel name definition h)
      (.error (.badFilter name fault), noteRejected channel h name fault) := by
  obtain ⟨code, hcode⟩ := Option.isSome_iff_exists.mp hcode
  have hnaming : DefinitionFault.naming name (.badFilter name fault) = .badFilter name fault :=
    DefinitionFault.naming_of_isWritable hname _
  have hlog : ((h.enter [(nameKey, name)]).log channel .warning rejectedMessage
        [(reasonKey, .text fault.message)]).1 = .ok ()
      ∨ ¬h.BlocksAreWritable := ok_or_of_enter hname rfl h
  unfold loadEntry Yields noteRejected
  rw [hbad]
  dsimp only
  rw [hcode]
  dsimp only
  generalize (h.enter [(nameKey, name)]).log channel .warning rejectedMessage
    [(reasonKey, .text fault.message)] = written at hlog ⊢
  rcases written with ⟨_ | _, g⟩
  · exact .inr ⟨hlog.resolve_left nofun, rfl⟩
  · exact .inl (congrArg (fun x => (Except.error x, g.leave)) hnaming)

/-- The first bad definition is the last to be read, by induction on what is before
it. -/
theorem loadEntries_of_bad (hbefore : List.Forall₂ Defines before c)
    (hname : name.isWritable = true) (hbad : entry name definition = .error fault)
    (hcode : fault.code?.isSome = true) (h : Hub) :
    Yields h (loadEntries channel (before ++ (name, definition) :: after) h)
      (.error (.badFilter name fault),
        noteRejected channel ((before.map (·.1)).foldl (noteBuilt channel) h) name fault) := by
  induction hbefore generalizing h with
  | nil =>
    rw [List.nil_append]
    have hfirst : Yields h (loadEntry channel name definition h) _ :=
      loadEntry_of_bad hname hbad hcode h
    rcases hfirst with heq | ⟨hnot, hfailed⟩
    · have hfailed := congrArg Prod.fst heq
      exact .inl ((loadEntries_cons_of_error hfailed).trans (congrArg _ (congrArg Prod.snd heq)))
    · exact .inr ⟨hnot, congrArg Prod.fst (loadEntries_cons_of_error hfailed)⟩
  | @cons e f rest others hfirst _ ih =>
    exact (loadEntry_of_defines hfirst h).cons (blocks_noteBuilt channel h e.1) (ih _)

/-- **The first bad definition ends the reading**, and its fault is reported with the
name. -/
theorem load_of_bad {definitions : α}
    (hshape : shape definitions = .mapping (before ++ (name, definition) :: after))
    (hbefore : List.Forall₂ Defines before c) (hname : name.isWritable = true)
    (hbad : entry name definition = .error fault) (hcode : fault.code?.isSome = true)
    (logger : Option Logger) (h : Hub) :
    ∃ h', Yields h (load definitions logger h) (.error (.badFilter name fault), h') :=
  load_of_entries hshape (fun _ h => ⟨_, loadEntries_of_bad hbefore hname hbad hcode h⟩) logger h

end Bad

end Catalogue

end Winnow
