/-
Winnow/Proofs/Settings/Rounds.lean

Rounds in which watchers make no changes.

Who is told is settled when a round begins: the watchers of that moment, once for each
time that they are in the row, and in its order.  What they do to the rows has no effect
on the round, and shows in the next one.  Only a watcher that fails ends the round, and
those behind it are not told (`inform_of_quiet`).  All are told the same, and the
setting stays whatever comes of the round (`set_of_quiet`).

Telling is followed watcher by watcher: `Told` says what is left when some have been
told, and each step adds one (`Told.next`).
-/
import Winnow.Proofs.Settings.Writing

namespace Winnow

/-! ### What watchers do -/

namespace Action

/-- Whether an action makes a change of a setting. -/
def changes : Action → Bool
  | .set .. => true
  | _ => false

/-- Whether an action is to fail. -/
def isFail : Action → Bool
  | .fail => true
  | _ => false

end Action

/-- A watcher that may fail, and have others come and go, but makes no changes. -/
def Reaction.IsPassive (reaction : Reaction) : Prop :=
  ∀ turn told, ∀ a ∈ reaction.actions turn told, a.changes = false

namespace Reaction

/-- Without changes there is no object to be set. -/
theorem IsPassive.held {reaction : Reaction} (h : reaction.IsPassive) (s : Store) :
    reaction.Held s := by
  intro turn told _ _ _ action hmem
  have hpassive := h turn told action hmem
  cases action with
  | set n path value source => cases hpassive
  | _ => trivial

theorem isPassive_none : none.IsPassive := fun _ _ _ ha => absurd ha List.not_mem_nil

theorem isPassive_fail : fail.IsPassive := by
  intro turn told action hmem
  rw [List.mem_singleton.mp hmem]
  rfl

theorem isPassive_dismiss (n : Nat) (watcher : String) : (dismiss n watcher).IsPassive := by
  intro turn told action hmem
  rw [List.mem_singleton.mp hmem]
  rfl

theorem isPassive_invite (n : Nat) (watcher : String) : (invite n watcher).IsPassive := by
  intro turn told action hmem
  rw [List.mem_singleton.mp hmem]
  rfl

end Reaction

namespace Registry

variable {r r₁ r₂ q : Registry} {item value : Item} {name key : String} {before told : List String}
  {actions : List Action} {change : Change} {n m : Nat} {source : Source} {path : List String}

/-- What a watcher does when it is told in a round behind others, of whom it may be one. -/
def actionsAfter (r : Registry) (item : Item) (before : List String) (name : String) :
    List Action :=
  (r.reaction name).actions (r.turns.count name + before.count name) ⟨r.store, item⟩

/-- A watcher fails when it is told behind others. -/
def FailsAfter (r : Registry) (item : Item) (before : List String) (name : String) : Prop :=
  Action.fail ∈ r.actionsAfter item before name

/-- None of the watchers fails when they are told behind others, one after another. -/
def NoneFails (r : Registry) (item : Item) (before names : List String) : Prop :=
  ∀ earlier name later, names = earlier ++ name :: later →
    ¬ r.FailsAfter item (before ++ earlier) name

/-- None of the watchers makes a change when they are told behind others, one after
another. -/
def Quiet (r : Registry) (item : Item) (before names : List String) : Prop :=
  ∀ earlier name later, names = earlier ++ name :: later →
    ∀ a ∈ r.actionsAfter item (before ++ earlier) name, a.changes = false

/-- No watcher makes a change in the round that comes next. -/
def QuietRound [Stack] (r : Registry) (n : Nat) : Prop :=
  ∀ item q, r.merged n = (.ok item, q) → q.Quiet item [] (r.watchers n)

/-- What comes of the actions of a watcher before it fails. -/
def doneAfter (r : Registry) (item : Item) (before : List String) (name : String) :
    List Action :=
  (r.actionsAfter item before name).takeWhile fun a => !a.isFail

/-- What watchers do in a round behind others, one after another. -/
def doneBy (r : Registry) (item : Item) : (before names : List String) → List Action
  | _, [] => []
  | before, name :: rest => r.doneAfter item before name ++ r.doneBy item (before ++ [name]) rest

theorem doneBy_concat (before names : List String) (name : String) :
    r.doneBy item before (names ++ [name])
      = r.doneBy item before names ++ r.doneAfter item (before ++ names) name := by
  induction names generalizing before with
  | nil => simp [doneBy]
  | cons first rest ih =>
    rw [List.cons_append, doneBy, doneBy, ih, List.append_assoc, List.append_assoc,
      List.singleton_append]

theorem noneFails_nil : r.NoneFails item before [] :=
  fun earlier name later h => absurd h (by simp)

theorem NoneFails.cons {names : List String} (hfirst : ¬ r.FailsAfter item before name)
    (hrest : r.NoneFails item (before ++ [name]) names) :
    r.NoneFails item before (name :: names) := by
  intro earlier other later h
  cases earlier with
  | nil =>
    cases h
    rwa [List.append_nil]
  | cons first earlier =>
    obtain ⟨rfl, hsplit⟩ := List.cons.inj h
    have hother := hrest earlier other later hsplit
    rwa [List.append_assoc, List.singleton_append] at hother

theorem quiet_of_passive {names : List String}
    (h : ∀ name ∈ names, (r.reaction name).IsPassive) : r.Quiet item before names := by
  rintro earlier name later rfl a ha
  exact h name (List.mem_append_right _ List.mem_cons_self) _ _ a ha

theorem Quiet.head {names : List String} (h : r.Quiet item before (name :: names)) :
    ∀ a ∈ r.actionsAfter item before name, a.changes = false := by
  have hfirst := h [] name names rfl
  rwa [List.append_nil] at hfirst

theorem Quiet.tail {names : List String} (h : r.Quiet item before (name :: names)) :
    r.Quiet item (before ++ [name]) names := by
  rintro earlier other later rfl
  rw [List.append_assoc, List.singleton_append]
  exact h (name :: earlier) other later rfl

/-! ### Editing rows -/

/-- Editing rows changes neither what is in the layers nor what watchers have been told. -/
structure EditedFrom (r q : Registry) : Prop where
  store : q.store = r.store
  layers : ∀ m, q.layers m = r.layers m
  reactions : q.reactions = r.reactions
  turns : q.turns = r.turns
  notes : q.notes = r.notes

theorem EditedFrom.refl (r : Registry) : r.EditedFrom r := ⟨rfl, fun _ => rfl, rfl, rfl, rfl⟩

theorem EditedFrom.trans (h : r.EditedFrom r₁) (k : r₁.EditedFrom q) : r.EditedFrom q :=
  ⟨k.store.trans h.store, fun m => (k.layers m).trans (h.layers m), k.reactions.trans h.reactions,
    k.turns.trans h.turns, k.notes.trans h.notes⟩

/-- What a change of settings leaves alone, it leaves alone in all of them. -/
theorem map_settings_update {α : Type} {part : Settings → α} (r : Registry)
    {f : Settings → Settings} (hf : ∀ c, part (f c) = part c) (n m : Nat) :
    ((r.update n f).settings[m]?).map part = (r.settings[m]?).map part := by
  show ((r.settings.modify n f)[m]?).map part = (r.settings[m]?).map part
  rw [List.getElem?_modify]
  cases r.settings[m]? with
  | none => rfl
  | some c =>
    show some (part (if n = m then f c else c)) = some (part c)
    split
    · rw [hf]
    · rfl

theorem layers_update (r : Registry) {f : Settings → Settings}
    (hf : ∀ c, (f c).layers = c.layers) (n m : Nat) :
    (r.update n f).layers m = r.layers m :=
  congrArg (·.getD .none) (r.map_settings_update hf n m)

theorem editedFrom_edit (r : Registry) (action : Action) : r.EditedFrom (r.edit action) := by
  cases action with
  | dismiss n other =>
    exact ⟨rfl, r.layers_update (f := (·.removeWatcher other)) (fun _ => rfl) n, rfl, rfl, rfl⟩
  | invite n other =>
    exact ⟨rfl, r.layers_update (f := (·.addWatcher other)) (fun _ => rfl) n, rfl, rfl, rfl⟩
  | fail => exact .refl r
  | set n path value source => exact .refl r

theorem editedFrom_foldl (actions : List Action) (r : Registry) :
    r.EditedFrom (actions.foldl edit r) := by
  induction actions generalizing r with
  | nil => exact .refl r
  | cons action rest ih => exact (editedFrom_edit r action).trans (ih _)

theorem settings_edit_congr (h : q.settings = r.settings) (action : Action) :
    (q.edit action).settings = (r.edit action).settings := by
  cases action with
  | dismiss n other => exact congrArg (List.modify · n _) h
  | invite n other => exact congrArg (List.modify · n _) h
  | fail => exact h
  | set n path value source => exact h

theorem settings_foldl_congr (actions : List Action) (h : q.settings = r.settings) :
    (actions.foldl edit q).settings = (actions.foldl edit r).settings := by
  induction actions generalizing q r with
  | nil => exact h
  | cons action rest ih => exact ih (settings_edit_congr h action)

/-- A watcher without changes edits rows until it fails. -/
theorem performAll_of_quiet (h : ∀ a ∈ actions, a.changes = false) (r : Registry) :
    performAll change name actions r
      = (if actions.any Action.isFail then .error (.watcher name) else .ok (),
          (actions.takeWhile fun a => !a.isFail).foldl edit r) := by
  induction actions generalizing r with
  | nil => rfl
  | cons action rest ih =>
    obtain ⟨hfirst, hrest⟩ := List.forall_mem_cons.mp h
    rw [performAll]
    cases action with
    | fail => rfl
    | dismiss n other => exact ih hrest _
    | invite n other => exact ih hrest _
    | set n path value source => cases hfirst

theorem any_isFail_iff : actions.any Action.isFail = true ↔ .fail ∈ actions := by
  rw [List.any_eq_true]
  constructor
  · rintro ⟨action, hmem, hfail⟩
    cases action with
    | fail => exact hmem
    | _ => cases hfail
  · exact fun hmem => ⟨.fail, hmem, rfl⟩

/-! ### Who has been told -/

/-- What is left of a registry when watchers have been told of merged settings. -/
structure Told (r : Registry) (item : Item) (told : List String) (q : Registry) : Prop where
  notes : q.notes = r.notes ++ told.map fun name => (name, ⟨r.store, item⟩)
  turns : ∀ name, q.turns.count name = r.turns.count name + told.count name
  settings : q.settings = ((r.doneBy item [] told).foldl edit r).settings
  store : q.store = r.store
  layers : ∀ m, q.layers m = r.layers m
  reactions : q.reactions = r.reactions

theorem told_nil (r : Registry) (item : Item) : r.Told item [] r :=
  ⟨by simp, fun _ => rfl, rfl, rfl, fun _ => rfl, rfl⟩

theorem Told.actionsOf (h : r.Told item told q) (name : String) :
    q.actionsOf name item = r.actionsAfter item told name := by
  unfold Registry.actionsOf actionsAfter Registry.reaction
  rw [h.reactions, h.turns, h.store]

/-- One more is told. -/
theorem Told.next (h : r.Told item told q) (name : String) :
    r.Told item (told ++ [name]) ((r.doneAfter item told name).foldl edit (q.note name item)) := by
  obtain ⟨hstore, hlayers, hreactions, hturns, hnotes⟩ :=
    editedFrom_foldl (r.doneAfter item told name) (q.note name item)
  refine ⟨?_, fun other => ?_, ?_, hstore.trans h.store, fun m => (hlayers m).trans (h.layers m),
    hreactions.trans h.reactions⟩
  · rw [hnotes]
    show q.notes ++ [(name, ⟨q.store, item⟩)] = _
    rw [h.notes, h.store, List.map_append, List.append_assoc]
    rfl
  · rw [hturns]
    show (name :: q.turns).count other = _
    rw [List.count_cons, h.turns, List.count_append, List.count_singleton, Nat.add_assoc]
  · rw [doneBy_concat, List.nil_append, List.foldl_append]
    exact settings_foldl_congr _ h.settings

/-- **Telling watchers that make no changes**, by induction on those still to be told: all
of them are, or those up to the first that fails. -/
theorem inform_of_quiet (change : Change) {names : List String} (h : r.Told item told q)
    (hquiet : r.Quiet item told names) :
    (r.NoneFails item told names ∧ ∃ q', inform change item names q = (.ok (), q') ∧
      r.Told item (told ++ names) q') ∨
    ∃ before name after, names = before ++ name :: after ∧ r.NoneFails item told before ∧
      r.FailsAfter item (told ++ before) name ∧
      ∃ q', inform change item names q = (.error (.watcher name), q') ∧
        r.Told item (told ++ (before ++ [name])) q' := by
  induction names generalizing told q with
  | nil => exact .inl ⟨noneFails_nil, q, rfl, by rwa [List.append_nil]⟩
  | cons name rest ih =>
    have hperform : performAll change name (q.actionsOf name item) (q.note name item) = _ :=
      performAll_of_quiet (by rw [h.actionsOf]; exact hquiet.head) _
    rw [h.actionsOf] at hperform
    have hnext := h.next name
    rw [inform, h.actionsOf]
    by_cases hfails : r.FailsAfter item told name
    · refine .inr ⟨[], name, rest, rfl, noneFails_nil, by rwa [List.append_nil], _, ?_, hnext⟩
      rw [if_pos (any_isFail_iff.mpr hfails)] at hperform
      rw [hperform]
      rfl
    · rw [if_neg (fun hany => hfails (any_isFail_iff.mp hany))] at hperform
      rw [hperform]
      rcases ih hnext hquiet.tail with ⟨hnone, q', hq', htold⟩ |
        ⟨before, other, after, rfl, hnone, hother, q', hq', htold⟩
      · refine .inl ⟨hnone.cons hfails, q', hq', ?_⟩
        rwa [List.append_assoc, List.singleton_append] at htold
      · rw [List.append_assoc, List.singleton_append] at hother htold
        exact .inr ⟨name :: before, other, after, rfl, hnone.cons hfails, hother, q', hq', htold⟩

/-! ### What nobody is told of -/

/-- Nobody is told of anything, and nobody comes or goes. -/
structure SameWatchers (r q : Registry) : Prop where
  notes : q.notes = r.notes
  turns : q.turns = r.turns
  reactions : q.reactions = r.reactions
  watchers : ∀ m, q.watchers m = r.watchers m

theorem SameWatchers.refl (r : Registry) : r.SameWatchers r := ⟨rfl, rfl, rfl, fun _ => rfl⟩

theorem SameWatchers.trans (h : r.SameWatchers r₁) (k : r₁.SameWatchers q) : r.SameWatchers q :=
  ⟨k.notes.trans h.notes, k.turns.trans h.turns, k.reactions.trans h.reactions,
    fun m => (k.watchers m).trans (h.watchers m)⟩

theorem watchers_update (r : Registry) {f : Settings → Settings}
    (hf : ∀ c, (f c).watchers = c.watchers) (n m : Nat) :
    (r.update n f).watchers m = r.watchers m :=
  congrArg (·.getD []) (r.map_settings_update hf n m)

theorem sameWatchers_setLayers (r : Registry) (n : Nat) (l : Layers) (s : Store) :
    r.SameWatchers (r.setLayers n l s) :=
  ⟨rfl, rfl, rfl, r.watchers_update (f := fun c => { c with layers := l }) (fun _ => rfl) n⟩

theorem sameWatchers_assign {outcome : Except SettingFault Unit}
    (h : r.assign n path value source = (outcome, q)) : r.SameWatchers q := by
  unfold Registry.assign at h
  split at h <;> cases h <;> exact sameWatchers_setLayers r n _ _

theorem sameWatchers_merged [Stack] {outcome : Except SettingFault Item}
    (h : r.merged n = (outcome, q)) : r.SameWatchers q := by
  unfold Registry.merged at h
  split at h <;> cases h <;> exact ⟨rfl, rfl, rfl, fun _ => rfl⟩

/-- Watchers that make no changes at all make none after a change. -/
theorem SameWatchers.quietRound [Stack] (h : r.SameWatchers q)
    (hpassive : ∀ name ∈ r.watchers n, (r.reaction name).IsPassive) : q.QuietRound n := by
  intro item r₂ hmerged
  refine quiet_of_passive ?_
  unfold Registry.reaction
  rw [(sameWatchers_merged hmerged).reactions, h.reactions, h.watchers]
  exact hpassive

theorem sameWatchers_loadFile (r : Registry) (n : Nat) (f : Files) (path : String)
    (source : Source) : r.SameWatchers (r.loadFile n f path source).2 := by
  unfold Registry.loadFile
  split
  · exact sameWatchers_setLayers r n _ _
  · exact .refl r

theorem sameWatchers_loadCopy (r : Registry) (n : Nat) (item : Item) (source : Source) :
    r.SameWatchers (r.loadCopy n item source) := sameWatchers_setLayers r n _ _

theorem sameWatchers_clear (r : Registry) (n : Nat) (source : Option Source) :
    r.SameWatchers (r.clear n source) := by
  refine ⟨rfl, rfl, rfl, fun m => ?_⟩
  refine r.watchers_update ?_ n m
  exact fun c => rfl

/-! ### Changes and their rounds -/

theorem layers_setLayers (r : Registry) (n : Nat) (l : Layers) (s : Store) :
    (r.setLayers n l s).layers n = if n < r.settings.length then l else .none := by
  show (((r.settings.modify n fun c => { c with layers := l })[n]?).map (·.layers)).getD .none = _
  rw [List.getElem?_modify]
  by_cases hn : n < r.settings.length
  · rw [List.getElem?_eq_getElem hn, if_pos hn]
    simp
  · rw [List.getElem?_eq_none (Nat.not_lt.mp hn), if_neg hn]
    rfl

/-- What a change leaves of the layers. -/
theorem assign_eq_ok (h : r.assign n path value source = (.ok (), r₁)) :
    ∃ l s, (r.layers n).assign r.store source path value = (.ok (), l, s) ∧
      r₁ = r.setLayers n l s := by
  unfold Registry.assign at h
  split at h
  · rename_i l s hassign
    cases h
    exact ⟨l, s, hassign, rfl⟩
  · cases h

theorem hasMappings_of_assign (hr : r.Sound) (hmappings : r.HasMappings n) (hpath : path ≠ [])
    (h : r.assign n path value source = (.ok (), r₁)) : r₁.HasMappings n := by
  obtain ⟨l, s, hassign, rfl⟩ := assign_eq_ok h
  intro other layer hlayer
  rw [layers_setLayers] at hlayer
  split at hlayer
  · exact Layers.isMapping_of_assign hr.store (hr.layers n) hmappings hpath hassign other layer
      hlayer
  · cases hlayer

/-- A change that can be made is followed by a round. -/
theorem set_eq_announce [Stack] (h : r.assign n path value source = (.ok (), r₁)) :
    r.set n path value source = announce (setTo Stack.rounds) r₁ n := by
  rw [set, setTo, h]

/-- A change that cannot be put into its layer is over. -/
theorem set_of_assign_error [Stack] {fault : SettingFault}
    (h : r.assign n path value source = (.error fault, r₁)) :
    r.set n path value source = (.error fault, r₁) := by
  rw [set, setTo, h]

theorem merged_or_tooDeep [Stack] (hr : r.Sound) (hmappings : r.HasMappings n) :
    (∃ item q, r.merged n = (.ok item, q)) ∨ ∃ q, r.merged n = (.error (.layer .tooDeep), q) := by
  rcases Layers.merged_or_tooDeep hr.store (hr.layers n) hmappings with
    ⟨item, t, hmerged⟩ | ⟨⟨t, hmerged⟩, -⟩
  · exact .inl ⟨item, _, merged_eq_ok_iff.mpr ⟨t, hmerged, rfl⟩⟩
  · refine .inr ⟨{ r with store := t }, ?_⟩
    unfold Registry.merged
    rw [hmerged]

/-- What was in the layers is in them still. -/
structure Kept (r q : Registry) : Prop where
  layers : ∀ m, q.layers m = r.layers m
  grows : r.store.GrowsTo q.store

theorem Kept.find?_eq (h : r.Kept q) (hr : r.Sound) (m : Nat) (path : List String) :
    q.find? m path = r.find? m path := by
  unfold Registry.find?
  rw [h.layers]
  exact Layers.find?_of_growsTo h.grows hr.store (hr.layers m) path

theorem kept_merged [Stack] (hr : r.Sound) {outcome : Except SettingFault Item}
    (h : r.merged n = (outcome, q)) : r.Kept q := by
  unfold Registry.merged at h
  split at h
  · rename_i hmerged
    cases h
    exact ⟨fun _ => rfl, (Layers.merged_sound hr.store hmerged).1⟩
  · rename_i hmerged
    cases h
    exact ⟨fun _ => rfl, (Layers.merged_sound hr.store hmerged).1⟩

theorem Kept.afterTold (h : r.Kept r₂) (htold : r₂.Told item told q) : r.Kept q :=
  ⟨fun m => (htold.layers m).trans (h.layers m), htold.store ▸ h.grows⟩

/-- What comes of a round in which no watcher makes changes: all watchers of the row have
been told, or one fails, and all have been told up to this one. -/
inductive RoundOf (r : Registry) (item : Item) (row : List String) : Outcome Unit → Prop
  | all {q : Registry} : r.NoneFails item [] row → r.Told item row q →
      RoundOf r item row (.ok (), q)
  | upTo {q : Registry} {before after : List String} {name : String} :
      row = before ++ name :: after → r.NoneFails item [] before → r.FailsAfter item before name →
      r.Told item (before ++ [name]) q → RoundOf r item row (.error (.watcher name), q)

theorem roundOf_inform (change : Change) {row : List String}
    (hquiet : r.Quiet item [] row) :
    r.RoundOf item row (inform change item row r) := by
  rcases inform_of_quiet change (told_nil r item) hquiet with
    ⟨hnone, q, hq, htold⟩ | ⟨before, name, after, hsplit, hnone, hfails, q, hq, htold⟩
  · rw [hq]
    exact .all hnone htold
  · rw [hq]
    exact .upTo hsplit hnone hfails htold

theorem RoundOf.kept {o : Outcome Unit} (h : r.Kept r₂) (hround : r₂.RoundOf item told o) :
    r.Kept o.2 := by
  cases hround with
  | all _ htold => exact h.afterTold htold
  | upTo _ _ _ htold => exact h.afterTold htold

theorem announce_of_quiet [Stack] (change : Change) (hquiet : r.QuietRound n) :
    (∃ item q, r.merged n = (.ok item, q) ∧
      q.RoundOf item (r.watchers n) (announce change r n)) ∨
    ∃ fault q, r.merged n = (.error fault, q) ∧ announce change r n = (.error fault, q) := by
  unfold announce
  cases hmerged : r.merged n with
  | mk outcome q =>
    have hsame := sameWatchers_merged hmerged
    cases outcome with
    | ok item =>
      dsimp only
      rw [hsame.watchers n]
      exact .inl ⟨item, q, rfl, roundOf_inform change (hquiet item q hmerged)⟩
    | error fault => exact .inr ⟨fault, q, rfl, rfl⟩

/-- A round in which no watcher makes changes keeps what is in the layers, whatever comes
of it. -/
theorem kept_announce [Stack] (change : Change) (hr : r.Sound) (hquiet : r.QuietRound n) :
    r.Kept (announce change r n).2 := by
  rcases announce_of_quiet change hquiet with
    ⟨item, q, hmerged, hround⟩ | ⟨fault, q, hmerged, hfails⟩
  · exact hround.kept (kept_merged hr hmerged)
  · rw [hfails]
    exact kept_merged hr hmerged

theorem kept_set [Stack] (hr : r.Sound) (hvalue : r.store.Holds value)
    (hassign : r.assign n path value source = (.ok (), r₁)) (hquiet : r₁.QuietRound n) :
    r₁.Kept (r.set n path value source).2 := by
  rw [set_eq_announce hassign]
  exact kept_announce _ (assign_leadsTo hr hvalue hassign).sound hquiet

/-- **Who is told of a change**, where no watcher makes changes of its own.  The layers are
mappings, and the setting can be put into its layer.  If the layers merge then, all
watchers that are in the row at this moment are told of what they merge to, in order, up
to the first that fails; if they nest too deep to be merged, this is reported and nobody
is told.  The setting stays.  Nobody is told when settings are loaded or cleared, or when
watchers come and go. -/
theorem set_of_quiet [Stack] (hr : r.Reachable) (hmappings : r.HasMappings n)
    (hvalue : r.store.Holds value)
    (hassign : r.assign n (Setting.keyParts key) value source = (.ok (), r₁))
    (hquiet : r₁.QuietRound n) :
    ((∃ item r₂, r₁.merged n = (.ok item, r₂) ∧ r.SameWatchers r₂ ∧
        r₂.RoundOf item (r.watchers n) (r.set n (Setting.keyParts key) value source)) ∨
      ∃ r₂, r₁.merged n = (.error (.layer .tooDeep), r₂) ∧ r.SameWatchers r₂ ∧
        r.set n (Setting.keyParts key) value source = (.error (.layer .tooDeep), r₂)) ∧
    r₁.Kept (r.set n (Setting.keyParts key) value source).2 ∧
    (∀ m path, (r.set n (Setting.keyParts key) value source).2.find? m path = r₁.find? m path) ∧
    (∀ f path other, r.SameWatchers (r.loadFile n f path other).2) ∧
    (∀ item other, r.SameWatchers (r.loadCopy n item other)) ∧
    (∀ other, r.SameWatchers (r.clear n other)) ∧
    (∀ name, (r.update n (·.addWatcher name)).notes = r.notes) ∧
    ∀ name, (r.update n (·.removeWatcher name)).notes = r.notes := by
  have hstep := assign_leadsTo hr.sound hvalue hassign
  have hsame := sameWatchers_assign hassign
  have hmappings' := hasMappings_of_assign hr.sound hmappings (Setting.keyParts_ne_nil key) hassign
  have hkept := kept_set hr.sound hvalue hassign hquiet
  have hround := announce_of_quiet (setTo Stack.rounds) hquiet
  rw [hsame.watchers] at hround
  rw [set_eq_announce hassign] at hkept ⊢
  refine ⟨?_, hkept, hkept.find?_eq hstep.sound, sameWatchers_loadFile r n,
    sameWatchers_loadCopy r n, sameWatchers_clear r n, fun _ => rfl, fun _ => rfl⟩
  rcases hround with ⟨item, q, hmerged, hround⟩ | ⟨fault, q, hmerged, hfails⟩
  · exact .inl ⟨item, q, hmerged, hsame.trans (sameWatchers_merged hmerged), hround⟩
  · -- mappings fail to merge for depth only
    rcases merged_or_tooDeep hstep.sound hmappings' with ⟨item, q', hok⟩ | ⟨q', hdeep⟩
    · cases hok.symm.trans hmerged
    · cases hdeep.symm.trans hmerged
      exact .inr ⟨q, hmerged, hsame.trans (sameWatchers_merged hmerged), hfails⟩

/-- New settings with watchers of whom the first takes the second away, the second adds the
last once more, and the third fails. -/
def attended : Registry :=
  let (_, r) := empty.add .empty none none
  let r := ((r.introduce "a" (.dismiss 0 "b")).introduce "b" (.invite 0 "d")).introduce "c" .fail
  ["a", "b", "c", "d"].foldl (fun r name => r.update 0 (·.addWatcher name)) r

open scoped Stack in
theorem reachable_attended : attended.Reachable := by
  have hnew : Reachable (empty.add .empty none none).2 := .add _ _ _ .empty
  have hfirst := hnew.introduce "a" ((Reaction.isPassive_dismiss 0 "b").held _)
  have hsecond := hfirst.introduce "b" ((Reaction.isPassive_invite 0 "d").held _)
  have hthird := hsecond.introduce "c" (Reaction.isPassive_fail.held _)
  exact (((hthird.addWatcher 0 "a").addWatcher 0 "b").addWatcher 0 "c").addWatcher 0 "d"

theorem isPassive_attended (name : String) : (attended.reaction name).IsPassive := by
  have hreactions : attended.reactions
      = [("c", .fail), ("b", .invite 0 "d"), ("a", .dismiss 0 "b")] := rfl
  rcases attended.reaction_eq_none_or_mem name with hnone | hmem
  · rw [hnone]
    exact Reaction.isPassive_none
  · have hall : ∀ w ∈ attended.reactions, w.2.IsPassive := by
      rw [hreactions]
      exact List.forall_mem_cons.mpr ⟨Reaction.isPassive_fail, List.forall_mem_cons.mpr
        ⟨Reaction.isPassive_invite 0 "d", List.forall_mem_singleton.mpr
          (Reaction.isPassive_dismiss 0 "b")⟩⟩
    exact hall _ hmem

open scoped Stack in
theorem set_of_quiet_attended : ∃ item r₂ q,
    (attended.assign 0 (Setting.keyParts "x") (.scalar (.integer 1)) .runtime).2.merged 0
      = (.ok item, r₂) ∧
    attended.set 0 (Setting.keyParts "x") (.scalar (.integer 1)) .runtime
      = (.error (.watcher "c"), q) ∧
    q.notes = ["a", "b", "c"].map fun name => (name, ⟨r₂.store, item⟩) := by
  have hmappings : attended.HasMappings 0 := by
    intro source layer hlayer
    cases source <;> cases hlayer
    rfl
  have hassign : attended.assign 0 (Setting.keyParts "x") (.scalar (.integer 1)) .runtime
      = (.ok (), (attended.assign 0 (Setting.keyParts "x") (.scalar (.integer 1)) .runtime).2) :=
    Prod.ext (by decide +kernel) rfl
  have hvalue : attended.store.Holds (.scalar (.integer 1)) := trivial
  have hpassive : ∀ name ∈ attended.watchers 0, (attended.reaction name).IsPassive :=
    fun name _ => isPassive_attended name
  have hfails : (attended.set 0 (Setting.keyParts "x") (.scalar (.integer 1)) .runtime).1
      = .error (.watcher "c") := by decide +kernel
  have hquiet := (sameWatchers_assign hassign).quietRound hpassive
  obtain ⟨hround, -⟩ := set_of_quiet reachable_attended hmappings hvalue hassign hquiet
  have hrow : attended.watchers 0 = ["a", "b", "c", "d"] := by decide +kernel
  rw [hrow] at hround
  generalize hset : attended.set 0 (Setting.keyParts "x") (.scalar (.integer 1)) .runtime = o
    at hround hfails ⊢
  rcases hround with ⟨item, r₂, hmerged, hsame, hround⟩ | ⟨r₂, -, -, hdeep⟩
  · cases hround with
    | all => cases hfails
    | @upTo q before after name hsplit _ _ htold =>
      cases hfails
      have hbefore : before = ["a", "b"] := by
        rcases before with _ | ⟨x, _ | ⟨y, _ | ⟨z, _ | ⟨w, rest⟩⟩⟩⟩ <;> simp at hsplit
        obtain ⟨rfl, rfl, -⟩ := hsplit
        rfl
      subst hbefore
      exact ⟨item, r₂, q, hmerged, rfl, htold.notes.trans (by rw [hsame.notes]; rfl)⟩
  · rw [hdeep] at hfails
    cases hfails

open scoped Stack in
/-- New settings with a watcher, in which an object has been put into itself, and the
object. -/
def selfContained : Item × Registry :=
  let (_, r) := empty.add .empty none none
  let (x, s) := r.store.add (.mapping [])
  let (_, r) := { r with store := s }.set 0 ["a"] x .runtime
  let (_, r) := r.set 0 ["a", "b"] x .runtime
  (x, r.update 0 (·.addWatcher "w"))

open scoped Stack in
theorem reachable_selfContained : selfContained.2.Reachable ∧
    selfContained.2.store.Holds selfContained.1 := by
  have hnew : Reachable (empty.add .empty none none).2 := .add _ _ _ .empty
  have hadded := hnew.new (c := .mapping []) Store.fits_mapping_nil
  have hset := hadded.set 0 ["a"] .runtime Store.holds_add
  have hheld := (set_leadsTo hadded.sound Store.holds_add 0 ["a"] .runtime).size_le
  have hset' := hset.set 0 ["a", "b"] .runtime (Store.holds_add.mono hheld)
  have hheld' := (set_leadsTo hset.sound (Store.holds_add.mono hheld) 0 ["a", "b"] .runtime).size_le
  exact ⟨hset'.addWatcher 0 "w", Store.holds_add.mono (Nat.le_trans hheld hheld')⟩

open scoped Stack in
/-- **Watchers are not always told.**  An object that contains itself can be put into the
layers of two sources, and nobody is told of it. -/
theorem not_told_of_passive : ¬ ∀ (r r₁ : Registry) (n : Nat) (key : String) (value : Item)
    (source : Source), r.Reachable → r.HasMappings n → r.store.Holds value →
    r.assign n (Setting.keyParts key) value source = (.ok (), r₁) →
    (∀ name, r.reaction name = .none) →
    (r.set n (Setting.keyParts key) value source).2.notes.map (·.1)
      = r.notes.map (·.1) ++ r.watchers n := by
  intro htold
  have hmappings : selfContained.2.HasMappings 0 := by
    intro source layer hlayer
    cases source <;> cases hlayer <;> rfl
  have hassign : selfContained.2.assign 0 (Setting.keyParts "a") selfContained.1 .file
      = (.ok (), (selfContained.2.assign 0 (Setting.keyParts "a") selfContained.1 .file).2) :=
    Prod.ext (by decide +kernel) rfl
  have hnobody : ((selfContained.2.set 0 (Setting.keyParts "a") selfContained.1 .file).2.notes.map
      (·.1)) = [] := by decide +kernel
  have hrow : selfContained.2.notes.map (·.1) ++ selfContained.2.watchers 0 = ["w"] := by
    decide +kernel
  have hall := htold _ _ 0 "a" _ .file reachable_selfContained.1 hmappings
    reachable_selfContained.2 hassign fun _ => rfl
  rw [hnobody, hrow] at hall
  cases hall

end Registry

end Winnow
