/-
Winnow/Proofs/Settings/Nested.lean

Rounds within rounds.

A watcher may make changes while it is told of one, and each of them starts a round
within the round.  The settings are merged when a round begins, and what is left of the
rounds around it is told afterwards, of older settings.  So a watcher may be told of the
newest settings first and of older ones last (`not_lastTold_of_nested`).

What holds of every course of changes rests on the round that begins last
(`LastRound`).  No changes are made in it, so all of its row is told of what the layers
merge to at the end.  Behind it only those are told who stand in a row behind a watcher
that made a change (`Course.ends`, by induction on the course).  So everybody who is in
the row throughout is told of the settings of the end, and those with nobody in front
of them who makes changes are told of them last (`told_of_nested`).

That merging again comes to the same, in the store that has grown by the first merging,
is `Layers.merged_again`.
-/
import Mathlib.Data.List.TakeWhile
import Winnow.Proofs.Settings.Rounds
import Winnow.Proofs.Store.Shifting

namespace Winnow

/-! ### Merging again -/

namespace Layers

variable {l : Layers} {s t u : Store} {base count : Nat} {all : Item} {sources : List Source}
  {entries merged : List (Value × Item)}

theorem mergeOver_shifted [Stack] (h : Store.ShiftsTo base count s u)
    (hl : ∀ source layer, l source = some layer → layer.shifted base count = layer)
    (hmerge : l.mergeOver sources entries s = (.ok merged, t)) :
    ∃ v, l.mergeOver sources (Entries.shifted base count entries) u
      = (.ok (Entries.shifted base count merged), v) ∧ Store.ShiftsTo base count t v := by
  induction sources generalizing s u entries with
  | nil =>
    cases hmerge
    exact ⟨u, rfl, h⟩
  | cons source rest ih =>
    rw [mergeOver] at hmerge ⊢
    cases hlayer : l source with
    | none =>
      simp only [hlayer] at hmerge
      exact ih h hmerge
    | some layer =>
      simp only [hlayer] at hmerge ⊢
      have hupper' := h.entries?_eq layer
      rw [hl source layer hlayer] at hupper'
      cases hupper : s.entries? layer with
      | none =>
        rw [hupper] at hmerge
        cases hmerge
      | some upper =>
        rw [hupper, Option.map_some] at hupper'
        simp only [hupper] at hmerge
        simp only [hupper']
        cases hstep : Store.merge entries upper s with
        | none =>
          rw [hstep] at hmerge
          cases hmerge
        | some result =>
          simp only [hstep] at hmerge
          obtain ⟨v, hv, hshifts⟩ := h.mergeTo hstep
          rw [Store.merge, hv]
          exact ih hshifts hmerge

/-- **Merging again comes to the same**, also where objects have been added since. -/
theorem merged_again [Stack] (hs : s.Sound) (hl : l.Held s) (h : l.merged s = (.ok all, t))
    (hgrows : s.GrowsTo u) : ∃ again v, l.merged u = (.ok again, v) ∧ t.Rearranged v all again := by
  obtain ⟨-, ht, hall⟩ := merged_sound hs h
  have hheld := hall all rfl
  unfold merged at h
  split at h
  · rename_i entries w hmerge
    cases h
    have hlayers : ∀ source layer, l source = some layer →
        layer.shifted s.size (u.size - s.size) = layer :=
      fun source layer hlayer => Store.shifted_of_holds (hl source layer hlayer) (Nat.le_refl _)
    obtain ⟨v, hv, hshifts⟩ :=
      mergeOver_shifted (Store.shiftsTo_of_growsTo hs hgrows) hlayers hmerge
    have hagain : l.merged u = (.ok (.object v.size),
        (v.add (.mapping (Entries.shifted s.size (u.size - s.size) entries))).2) := by
      rw [merged, show l.mergeOver Source.all [] u = _ from hv]
      rfl
    have halike := (hshifts.add (.mapping entries)).rearranged ht hheld
    have hplace : (Item.object w.size).shifted s.size (u.size - s.size) = .object v.size :=
      congrArg Item.object hshifts.size
    rw [hplace] at halike
    exact ⟨_, _, hagain, halike⟩
  · cases h

end Layers

/-! ### What watchers know -/

namespace Registry

variable {r r₁ r₂ q : Registry} {n : Nat} {item value : Item} {name watcher : String}
  {x : Stored} {path told : List String} {source : Source} {actions : List Action}
  {old : List (String × Stored)} {P : Nat → Item → Registry → Prop} {L : String → Prop}
  {task : Task} {o : Outcome Unit}

/-- Merged settings that somebody was told of are what merging comes to now. -/
def IsCurrent [Stack] (r : Registry) (n : Nat) (x : Stored) : Prop :=
  ∃ all q, r.merged n = (.ok all, q) ∧ x.store.Rearranged q.store x.item all

/-- What a watcher has been told last. -/
def lastTold? (r : Registry) (watcher : String) : Option Stored := r.notes.reverse.lookup watcher

theorem lastTold?_of_split {earlier later : List (String × Stored)}
    (h : r.notes = earlier ++ (watcher, x) :: later) (hlater : ∀ note ∈ later, note.1 ≠ watcher) :
    r.lastTold? watcher = some x := by
  unfold lastTold?
  rw [h]
  refine List.lookup_eq_some_iff.mpr ⟨later.reverse, earlier.reverse, by simp, fun note hnote => ?_⟩
  simpa using (hlater note (List.mem_reverse.mp hnote)).symm

theorem IsCurrent.congr [Stack] (h : r.IsCurrent n x) (hstore : q.store = r.store)
    (hlayers : q.layers n = r.layers n) : q.IsCurrent n x := by
  obtain ⟨all, r', hmerged, halike⟩ := h
  obtain ⟨t, ht, rfl⟩ := merged_eq_ok_iff.mp hmerged
  rw [← hstore, ← hlayers] at ht
  exact ⟨all, { q with store := t }, merged_eq_ok_iff.mpr ⟨t, ht, rfl⟩, halike⟩

/-- Settings that have just been merged are current. -/
theorem isCurrent_of_merged [Stack] (hr : r.Sound) (h : r.merged n = (.ok item, q)) :
    q.IsCurrent n ⟨q.store, item⟩ := by
  obtain ⟨t, ht, rfl⟩ := merged_eq_ok_iff.mp h
  have hgrows := (Layers.merged_sound hr.store ht).1
  obtain ⟨again, v, hagain, halike⟩ := Layers.merged_again hr.store (hr.layers n) ht hgrows
  exact ⟨again, { r with store := v }, merged_eq_ok_iff.mpr ⟨v, hagain, rfl⟩, halike⟩

/-! ### Courses -/

/-- What has been noted stays noted. -/
theorem Course.notes_prefix [Stack] (h : Course P task r o) : r.notes <+: o.2.notes := by
  induction h with
  | limit => exact List.prefix_refl _
  | blocked hassign => rw [(sameWatchers_assign hassign).notes]
  | unmerged hassign hmerged =>
    rw [((sameWatchers_assign hassign).trans (sameWatchers_merged hmerged)).notes]
  | told hassign hmerged _ _ ih =>
    rwa [((sameWatchers_assign hassign).trans (sameWatchers_merged hmerged)).notes] at ih
  | nobody => exact List.prefix_refl _
  | failed rest _ ih => exact (List.prefix_append _ _).trans ih
  | next _ _ ih ih' => exact ((List.prefix_append _ _).trans ih).trans ih'
  | nothing => exact List.prefix_refl _
  | fail => exact List.prefix_refl _
  | @edit r name action rest o _ _ ih => rwa [(editedFrom_edit r action).notes] at ih
  | stopped rest _ ih => exact ih
  | changed _ _ ih ih' => exact ih.trans ih'

/-- A watcher that makes no changes, and does not fail, edits rows. -/
theorem Course.of_quiet [Stack] (h : Course P (.actions name actions) r (.ok (), q))
    (hquiet : ∀ a ∈ actions, a.changes = false) :
    (∀ a ∈ actions, a.isFail = false) ∧ q = actions.foldl Registry.edit r := by
  induction actions generalizing r with
  | nil =>
    cases h
    exact ⟨nofun, rfl⟩
  | cons action rest ih =>
    obtain ⟨hfirst, hrest⟩ := List.forall_mem_cons.mp hquiet
    cases h with
    | edit hedit hcourse =>
      obtain ⟨hfails, rfl⟩ := ih hcourse hrest
      refine ⟨List.forall_mem_cons.mpr ⟨?_, hfails⟩, rfl⟩
      cases action with
      | fail => cases hedit
      | _ => rfl
    | changed => cases hfirst

/-- One more has been told, who makes no changes. -/
theorem Told.next_of_quiet [Stack] (h : r.Told item told q)
    (hcourse : Course P (.actions name (q.actionsOf name item)) (q.note name item) (.ok (), r₁))
    (hquiet : ∀ a ∈ q.actionsOf name item, a.changes = false) :
    r.Told item (told ++ [name]) r₁ := by
  obtain ⟨hfails, rfl⟩ := hcourse.of_quiet hquiet
  have hdone : r.doneAfter item told name = q.actionsOf name item := by
    rw [doneAfter, ← h.actionsOf name, List.takeWhile_eq_self_iff]
    intro a ha
    rw [hfails a ha]
    rfl
  rw [← hdone]
  exact h.next name

/-! ### The round that begins last -/

/-- A round has come to its end, in which no changes were made, and of what its row was told
is current.  It was begun when `old` had been noted, and since its end only watchers with a
property have been told of anything. -/
inductive LastRound [Stack] (P : Nat → Item → Registry → Prop) (L : String → Prop) (n : Nat)
    (old : List (String × Stored)) (q : Registry) : Prop
  | of {item : Item} {r : Registry} (later : List (String × Stored)) : P n item r →
      old <+: r.notes →
      q.notes = r.notes ++ (r.watchers n).map (fun name => (name, ⟨r.store, item⟩)) ++ later →
      (∀ note ∈ later, L note.1) → q.IsCurrent n ⟨r.store, item⟩ → LastRound P L n old q

theorem LastRound.edit [Stack] (h : LastRound P L n old r) (action : Action) :
    LastRound P L n old (r.edit action) := by
  obtain ⟨hstore, hlayers, -, -, hnotes⟩ := editedFrom_edit r action
  cases h with
  | of later hP hold hrow hlater hcurrent =>
    exact .of later hP hold (hnotes.trans hrow) hlater (hcurrent.congr hstore (hlayers n))

/-- Somebody with the property is told of something. -/
theorem LastRound.note [Stack] (h : LastRound P L n old r) (hname : L name) (item : Item) :
    LastRound P L n old (r.note name item) := by
  cases h with
  | of later hP hold hrow hlater hcurrent =>
    refine .of (later ++ [(name, ⟨r.store, item⟩)]) hP hold ?_ ?_ (hcurrent.congr rfl rfl)
    · show r.notes ++ [(name, ⟨r.store, item⟩)] = _
      rw [hrow, List.append_assoc]
    · exact List.forall_mem_append.mpr ⟨hlater, List.forall_mem_singleton.mpr hname⟩

/-- Those in a row who come behind a watcher that makes changes have a property. -/
def Guards (r : Registry) (L : String → Prop) (item : Item) (told names : List String) : Prop :=
  ∀ earlier name later, names = earlier ++ name :: later →
    (∃ a ∈ r.actionsAfter item (told ++ earlier) name, a.changes = true) → ∀ other ∈ later, L other

theorem Guards.tail {names : List String} (h : r.Guards L item told (name :: names)) :
    r.Guards L item (told ++ [name]) names := by
  intro earlier other later hsplit hchanges
  refine h (name :: earlier) other later (by rw [hsplit]; rfl) ?_
  rwa [List.append_assoc, List.singleton_append] at hchanges

/-- Where a task ends well.  After a change there is a round that was begun last.  What is
left of a round is told to those who come behind a change, or there is no change and
everybody is told. -/
def Ends [Stack] (P : Nat → Item → Registry → Prop) (L : String → Prop) (n : Nat)
    (old : List (String × Stored)) : Task → Registry → Registry → Prop
  | .change .., _, q => LastRound P L n old q
  | .round item names, r, q =>
    (LastRound P L n old r → (∀ name ∈ names, L name) → LastRound P L n old q) ∧
    ∀ (begun : Registry) (told : List String), begun.Told item told r →
      begun.Guards L item told names →
      begun.Told item (told ++ names) q ∨ LastRound P L n old q
  | .actions _ actions, r, q =>
    (LastRound P L n old r → LastRound P L n old q) ∧
    ((∃ a ∈ actions, a.changes = true) → LastRound P L n old q)

/-- **After a course of changes there is a round that was begun last**, by induction on the
course. -/
theorem Course.ends [Stack]
    (hP : ∀ m item q, P m item q → m = n ∧ q.Guards L item [] (q.watchers n))
    (h : Course P task r o) (hr : r.Sound) (htask : task.Held r.store) (hold : old <+: r.notes)
    (hok : o.1 = .ok ()) : Ends P L n old task r o.2 := by
  induction h with
  | limit | blocked | unmerged | failed | fail | stopped => cases hok
  | @told r r₁ r₂ source m path value item o hassign hmerged hbegun _ ih =>
    obtain ⟨rfl, hguards⟩ := hP m item r₂ hbegun
    have hstep := assign_leadsTo hr htask hassign
    have hsame := (sameWatchers_assign hassign).trans (sameWatchers_merged hmerged)
    obtain ⟨hstep', hitem⟩ := merged_leadsTo hstep.sound hmerged
    have hold' : old <+: r₂.notes := hsame.notes ▸ hold
    obtain ⟨-, hround⟩ := ih hstep'.sound (hitem item rfl) hold' hok
    have hend := hround r₂ [] (told_nil r₂ item) hguards
    rw [List.nil_append] at hend
    rcases hend with htold | hlast
    · -- nobody made a change, so this round is the last one
      have hcurrent := (isCurrent_of_merged hstep.sound hmerged).congr htold.store (htold.layers m)
      exact .of [] hbegun hold' (by rw [List.append_nil, htold.notes]) nofun hcurrent
    · exact hlast
  | nobody item =>
    exact ⟨fun hlast _ => hlast, fun begun told htold _ => .inl (by rwa [List.append_nil])⟩
  | @next r r₁ item name rest o hfirst _ ih ih' =>
    have hnote := note_leadsTo hr name item
    have hactions := hr.actionsOf htask name
    have hstep := hnote.trans (hfirst.leadsTo hnote.sound hactions)
    have hold' : old <+: (r.note name item).notes := hold.trans (List.prefix_append _ _)
    obtain ⟨hkeeps, hmakes⟩ := ih hnote.sound hactions hold' rfl
    obtain ⟨hrest, hround⟩ := ih' hstep.sound (Store.Holds.mono hstep.size_le htask)
      (hold'.trans hfirst.notes_prefix) hok
    refine ⟨fun hlast hall => ?_, fun begun told htold hguards => ?_⟩
    · obtain ⟨hname, hnames⟩ := List.forall_mem_cons.mp hall
      exact hrest (hkeeps (hlast.note hname item)) hnames
    · have hsame := htold.actionsOf name
      by_cases hquiet : ∀ a ∈ r.actionsOf name item, a.changes = false
      · -- the round goes on as if the watcher had only taken note
        have hnext := htold.next_of_quiet hfirst hquiet
        have hend := hround begun (told ++ [name]) hnext hguards.tail
        rwa [List.append_assoc, List.singleton_append] at hend
      · -- those behind the watcher are told of older settings
        have hchanges : ∃ a ∈ r.actionsOf name item, a.changes = true := by
          simpa using hquiet
        have hlast := hmakes hchanges
        rw [hsame, ← List.append_nil told] at hchanges
        exact .inr (hrest hlast (hguards [] name rest rfl hchanges))
  | nothing => exact ⟨id, fun ⟨a, ha, _⟩ => absurd ha List.not_mem_nil⟩
  | @edit r name action rest o hedit _ ih =>
    obtain ⟨-, hrest⟩ := List.forall_mem_cons.mp htask
    have hstep := edit_leadsTo hr action
    obtain ⟨hkeeps, hmakes⟩ := ih hstep.sound (fun a ha => (hrest a ha).mono hstep.size_le)
      ((editedFrom_edit r action).notes ▸ hold) hok
    refine ⟨fun hlast => hkeeps (hlast.edit action), ?_⟩
    rintro ⟨a, ha, hchanges⟩
    rcases List.mem_cons.mp ha with rfl | ha
    · cases a with
      | set => cases hedit
      | _ => cases hchanges
    · exact hmakes ⟨a, ha, hchanges⟩
  | changed hchange _ ih ih' =>
    obtain ⟨hfirst, hrest⟩ := List.forall_mem_cons.mp htask
    have hstep := hchange.leadsTo hr hfirst
    have hlast := ih hr hfirst hold rfl
    obtain ⟨hkeeps, -⟩ := ih' hstep.sound (fun a ha => (hrest a ha).mono hstep.size_le)
      (hold.trans hchange.notes_prefix) hok
    exact ⟨fun _ => hkeeps hlast, fun _ => hkeeps hlast⟩

/-! ### What is told of nested changes -/

/-- Nobody in front of the last place of a watcher makes a change in a round. -/
def Undisturbed (r : Registry) (n : Nat) (watcher : String) (item : Item) : Prop :=
  ∃ before after, r.watchers n = before ++ watcher :: after ∧ watcher ∉ after ∧
    r.Quiet item [] before

theorem Undisturbed.guards (h : r.Undisturbed n watcher item) :
    r.Guards (· ≠ watcher) item [] (r.watchers n) := by
  obtain ⟨before, after, hrow, hafter, hquiet⟩ := h
  have hlater : ∀ other ∈ after, other ≠ watcher := fun other hother heq => hafter (heq ▸ hother)
  rintro earlier name later hsplit ⟨a, ha, hchanges⟩ other hother
  rw [hrow] at hsplit
  rcases List.append_eq_append_iff.mp hsplit with
    ⟨between, -, hbehind⟩ | ⟨between, hfront, hbehind⟩
  · -- who makes the change comes at that place or behind it
    cases between with
    | nil =>
      cases hbehind
      exact hlater other hother
    | cons first rest =>
      cases hbehind
      exact hlater other (List.mem_append_right _ (List.mem_cons_of_mem _ hother))
  · cases between with
    | nil =>
      cases hbehind
      exact hlater other hother
    | cons first rest =>
      cases hbehind
      have hfalse := hquiet earlier name rest hfront a ha
      rw [hchanges] at hfalse
      cases hfalse

/-- **What watchers are told when changes nest.**  Let a change succeed with all that
watchers make of it, and let all changes be of the same settings, with a watcher in the row
in every round.  Then the watcher is told, in the course of the change, of what the layers
merge to at the end; and if in no round anybody in front of its last place makes a change,
this is what it is told last. -/
theorem told_of_nested [Stack] (hr : r.Reachable) (hvalue : r.store.Holds value)
    (hok : (r.set n path value source).1 = .ok ())
    (hcourse : Course (fun m _ q => m = n ∧ watcher ∈ q.watchers n)
      (.change source n path value) r (r.set n path value source)) :
    (∃ since x, (r.set n path value source).2.notes = r.notes ++ since ∧ (watcher, x) ∈ since ∧
      (r.set n path value source).2.IsCurrent n x) ∧
    (Course (fun m item q => m = n ∧ q.Undisturbed n watcher item)
        (.change source n path value) r (r.set n path value source) →
      ∃ x, (r.set n path value source).2.lastTold? watcher = some x ∧
        (r.set n path value source).2.IsCurrent n x) := by
  constructor
  · have hlast := hcourse.ends (n := n) (L := fun _ => True)
      (fun m item q h => ⟨h.1, fun _ _ _ _ _ _ _ => trivial⟩) hr.sound hvalue
      (List.prefix_refl r.notes) hok
    cases hlast with
    | @of item q later hP hold hrow _ hcurrent =>
      obtain ⟨earlier, hearlier⟩ := hold
      refine ⟨earlier ++ ((q.watchers n).map fun name => (name, ⟨q.store, item⟩)) ++ later, _, ?_,
        List.mem_append_left _ (List.mem_append_right _ (List.mem_map_of_mem hP.2)), hcurrent⟩
      rw [hrow, ← hearlier, List.append_assoc, List.append_assoc, List.append_assoc]
  · intro hundisturbed
    have hlast := hundisturbed.ends (n := n) (L := (· ≠ watcher))
      (fun m item q h => ⟨h.1, h.2.guards⟩) hr.sound hvalue (List.prefix_refl r.notes) hok
    cases hlast with
    | @of item q later hP _ hrow hlater hcurrent =>
      obtain ⟨-, before, after, hsplit, hafter, -⟩ := hP
      have hnotes : (r.set n path value source).2.notes
          = (q.notes ++ before.map fun name => (name, ⟨q.store, item⟩)) ++
            (watcher, ⟨q.store, item⟩) ::
              ((after.map fun name => (name, ⟨q.store, item⟩)) ++ later) := by
        rw [hrow, hsplit]
        simp
      refine ⟨_, lastTold?_of_split hnotes ?_, hcurrent⟩
      refine List.forall_mem_append.mpr ⟨List.forall_mem_map.mpr fun name hname heq => ?_, hlater⟩
      exact hafter (heq ▸ hname)

/-! ### Watchers that stay -/

/-- Watchers that do nothing but change these settings. -/
def OnlyChanges (r : Registry) (n : Nat) : Prop :=
  ∀ name turn told, ∀ a ∈ (r.reaction name).actions turn told,
    ∃ path value source, a = .set n path value source

/-- Only these settings are changed in a task, and nobody comes or goes. -/
def OnlyChangesIn (n : Nat) : Task → Prop
  | .change _ m _ _ => m = n
  | .round .. => True
  | .actions _ actions => ∀ a ∈ actions, ∃ path value source, a = .set n path value source

/-- The same watchers are in the row, and react in the same way. -/
structure SameRow (r : Registry) (n : Nat) (q : Registry) : Prop where
  watchers : q.watchers n = r.watchers n
  reactions : q.reactions = r.reactions

theorem SameRow.trans (h : r.SameRow n r₁) (k : r₁.SameRow n q) : r.SameRow n q :=
  ⟨k.watchers.trans h.watchers, k.reactions.trans h.reactions⟩

theorem SameWatchers.sameRow (h : r.SameWatchers q) (n : Nat) : r.SameRow n q :=
  ⟨h.watchers n, h.reactions⟩

theorem OnlyChanges.actionsOf (h : r.OnlyChanges n) (hsame : r.SameRow n q) (name : String)
    (item : Item) : ∀ a ∈ q.actionsOf name item,
      ∃ path value source, a = .set n path value source := by
  unfold Registry.actionsOf Registry.reaction
  rw [hsame.reactions]
  exact h name _ _

/-- Where nobody comes or goes, the row is the same in every round. -/
theorem Course.steady [Stack] {begun : Registry} (honly : begun.OnlyChanges n)
    (h : Course P task r o) (htask : OnlyChangesIn n task) (hsame : begun.SameRow n r) :
    Course (fun m _ q => m = n ∧ begun.SameRow n q) task r o ∧ begun.SameRow n o.2 := by
  induction h with
  | limit source m path value => exact ⟨.limit source m path value, hsame⟩
  | blocked hassign =>
    exact ⟨.blocked hassign, hsame.trans ((sameWatchers_assign hassign).sameRow n)⟩
  | unmerged hassign hmerged =>
    have hstep := (sameWatchers_assign hassign).trans (sameWatchers_merged hmerged)
    exact ⟨.unmerged hassign hmerged, hsame.trans (hstep.sameRow n)⟩
  | told hassign hmerged _ _ ih =>
    have hstep := (sameWatchers_assign hassign).trans (sameWatchers_merged hmerged)
    have hbegun := hsame.trans (hstep.sameRow n)
    obtain ⟨hround, hend⟩ := ih trivial hbegun
    exact ⟨.told hassign hmerged ⟨htask, hbegun⟩ hround, hend⟩
  | nobody item => exact ⟨.nobody item, hsame⟩
  | @failed r r₁ item name fault rest _ ih =>
    obtain ⟨hfirst, hend⟩ := ih (honly.actionsOf hsame name item) ⟨hsame.watchers, hsame.reactions⟩
    exact ⟨.failed rest hfirst, hend⟩
  | @next r r₁ item name rest o _ _ ih ih' =>
    obtain ⟨hfirst, hmiddle⟩ :=
      ih (honly.actionsOf hsame name item) ⟨hsame.watchers, hsame.reactions⟩
    obtain ⟨hrest, hend⟩ := ih' trivial hmiddle
    exact ⟨.next hfirst hrest, hend⟩
  | nothing name => exact ⟨.nothing name, hsame⟩
  | fail name rest => exact ⟨.fail name rest, hsame⟩
  | edit hedit _ _ =>
    obtain ⟨path, value, source, rfl⟩ := (List.forall_mem_cons.mp htask).1
    cases hedit
  | stopped rest _ ih =>
    obtain ⟨path, value, source, heq⟩ := (List.forall_mem_cons.mp htask).1
    cases heq
    obtain ⟨hfirst, hend⟩ := ih rfl hsame
    exact ⟨.stopped rest hfirst, hend⟩
  | changed _ _ ih ih' =>
    obtain ⟨⟨path, value, source, heq⟩, hactions⟩ := List.forall_mem_cons.mp htask
    cases heq
    obtain ⟨hfirst, hmiddle⟩ := ih rfl hsame
    obtain ⟨hrest, hend⟩ := ih' hactions hmiddle
    exact ⟨.changed hfirst hrest, hend⟩

theorem course_set_of_onlyChanges [Stack] (h : r.OnlyChanges n) (path : List String) (value : Item)
    (source : Source) : Course (fun m _ q => m = n ∧ r.SameRow n q) (.change source n path value) r
      (r.set n path value source) :=
  ((course_set r n path value source).steady h rfl ⟨rfl, rfl⟩).1

/-- New settings with three watchers, of whom the second makes a change when it is told of
something for the first time. -/
def reentrant : Registry :=
  let (_, r) := empty.add .empty none none
  let r := r.introduce "b" (.set 0 ["y"] (.scalar (.integer 2)))
  ["a", "b", "c"].foldl (fun r name => r.update 0 (·.addWatcher name)) r

open scoped Stack in
theorem reachable_reentrant : reentrant.Reachable := by
  have hnew : Reachable (empty.add .empty none none).2 := .add _ _ _ .empty
  have hvalue : Store.Holds (empty.add .empty none none).2.store
      (.scalar (.integer 2)) := trivial
  have hintroduced := hnew.introduce "b" (@Reaction.held_set _ 0 ["y"] _ hvalue)
  exact ((hintroduced.addWatcher 0 "a").addWatcher 0 "b").addWatcher 0 "c"

theorem onlyChanges_reentrant : reentrant.OnlyChanges 0 := by
  intro name turn told a ha
  have hreactions : reentrant.reactions = [("b", .set 0 ["y"] (.scalar (.integer 2)))] := rfl
  rcases reentrant.reaction_eq_none_or_mem name with hnone | hmem
  · rw [hnone] at ha
    cases ha
  · rw [hreactions] at hmem
    rw [(Prod.mk.inj (List.mem_singleton.mp hmem)).2] at ha
    exact ⟨_, _, _, Reaction.eq_of_mem_set ha⟩

open scoped Stack in
theorem set_reentrant_ok :
    (reentrant.set 0 ["x"] (.scalar (.integer 1)) .runtime).1 = .ok () := by decide +kernel

open scoped Stack in
theorem course_reentrant (w : String) (hw : w ∈ ["a", "b", "c"]) :
    Course (fun m _ q => m = 0 ∧ w ∈ q.watchers 0)
      (.change .runtime 0 ["x"] (.scalar (.integer 1))) reentrant
      (reentrant.set 0 ["x"] (.scalar (.integer 1)) .runtime) := by
  refine (course_set_of_onlyChanges onlyChanges_reentrant _ _ _).mono fun m item q h => ⟨h.1, ?_⟩
  rw [h.2.watchers]
  exact hw

open scoped Stack in
/-- The watcher that makes the change is told last of what comes of it. -/
theorem told_of_nested_reentrant :
    ∃ x, (reentrant.set 0 ["x"] (.scalar (.integer 1)) .runtime).2.lastTold? "b" = some x ∧
      (reentrant.set 0 ["x"] (.scalar (.integer 1)) .runtime).2.IsCurrent 0 x := by
  have hvalue : reentrant.store.Holds (.scalar (.integer 1)) := trivial
  have htold := told_of_nested reachable_reentrant hvalue set_reentrant_ok
    (course_reentrant "b" (by decide))
  refine htold.2 ((course_set_of_onlyChanges onlyChanges_reentrant _ _ _).mono
    fun m item q h => ⟨h.1, ["a"], ["c"], h.2.watchers, by decide, ?_⟩)
  -- the watcher in front of it only takes note
  refine quiet_of_passive (List.forall_mem_singleton.mpr ?_)
  unfold Registry.reaction
  rw [h.2.reactions]
  exact Reaction.isPassive_none

open scoped Stack in
/-- **What is told last may be old.**  Behind a watcher that makes a change, the others are
told of the settings with this change first, and of those without it last. -/
theorem not_lastTold_of_nested : ¬ ∀ (r : Registry) (n : Nat) (path : List String) (value : Item)
    (source : Source) (watcher : String), r.Reachable → r.store.Holds value →
    (r.set n path value source).1 = .ok () →
    Course (fun m _ q => m = n ∧ watcher ∈ q.watchers n) (.change source n path value) r
      (r.set n path value source) →
    ∃ x, (r.set n path value source).2.lastTold? watcher = some x ∧
      (r.set n path value source).2.IsCurrent n x := by
  intro htold
  have hvalue : reentrant.store.Holds (.scalar (.integer 1)) := trivial
  obtain ⟨x, hx, all, q, hmerged, halike⟩ := htold reentrant 0 ["x"] _ .runtime "c"
    reachable_reentrant hvalue set_reentrant_ok (course_reentrant "c" (by decide))
  have hold : (((reentrant.set 0 ["x"] (.scalar (.integer 1)) .runtime).2.lastTold? "c").bind
      fun x => x.store.entries? x.item).map (fun entries => entries.map (·.1))
        = some [.text "resfilter", .text "x"] := by rfl
  have hnew : (reentrant.set 0 ["x"] (.scalar (.integer 1)) .runtime).2.mergedAt? 0 ["y"]
      = some (.scalar (.integer 2)) := by rfl
  obtain ⟨all', q', hmerged', hthere⟩ := mergedAt?_eq_some_iff.mp hnew
  cases hmerged.symm.trans hmerged'
  rw [hx, Option.bind_some] at hold
  obtain ⟨entries, hentries, hkeys⟩ := Option.map_eq_some_iff.mp hold
  obtain ⟨others, hothers, hsame⟩ := halike.exists_entries hentries
  rw [Store.find?_cons, hothers, Option.bind_some] at hthere
  obtain ⟨i, hi, -⟩ := Option.bind_eq_some_iff.mp hthere
  obtain ⟨k, hk, hkey⟩ := Entries.mem_of_find? hi
  obtain ⟨e, he, hek, -⟩ := hsame.right _ hk
  have hlast : e.1 = .text "y" := hek.trans (sameKey_text_iff.mp hkey)
  have hmem : e.1 ∈ entries.map (·.1) := List.mem_map_of_mem he
  rw [hkeys, hlast] at hmem
  simp at hmem

end Registry

end Winnow
