/-
Winnow/Proofs/Settings/Blocked.lean

When a setting cannot be put into its layer, and what is left then.

On its way to the place of a setting, `assign` makes the sections that are missing, and
it takes nothing back.  Still a change that fails leaves no trace: behind a section that
was missing there is nothing, so whatever stops the way lies on the part of it that was
there before, and is met before anything is made (`Store.assign_of_stopped`, by induction
on that part).

Main result: a change fails on its way exactly when something under a beginning of the key
is no mapping; by how much of the key is left the fault is one of two, all is as it was,
and nobody is told (`set_of_stopped`).
-/
import Winnow.Proofs.Settings.ReadBack

namespace Winnow

/-- The fault at something on the way that is no section, by what is left of the way:
with a single key left the item cannot be put there, with more the way cannot go on. -/
def SectionFault.before (kind : Kind) : (left : List String) → SectionFault
  | [_] => .noAssignment kind
  | _ => .noSection kind

namespace SectionFault

variable {kind : Kind} {left : List String}

theorem before_of_lt (kind : Kind) (h : 1 < left.length) :
    SectionFault.before kind left = .noSection kind := by
  match left, h with
  | _ :: _ :: _, _ => rfl

theorem before_of_eq (kind : Kind) (h : left.length = 1) :
    SectionFault.before kind left = .noAssignment kind := by
  match left, h with
  | [_], _ => rfl

end SectionFault

namespace Store

variable {s : Store} {i w value : Item} {path q left : List String}

/-- **A way that is stopped leaves no trace**, by induction on the part of the way before
what stops it. -/
theorem assign_of_stopped (value : Item) (hw : s.find? i q = some w) (hnone : s.entries? w = none)
    (hleft : left ≠ []) :
    s.assign value i (q ++ left) = (.error (.before (s.kind w) left), s) := by
  induction q generalizing i with
  | nil =>
    obtain rfl : i = w := Option.some.inj hw
    match left, hleft with
    | [last], _ =>
      simp only [List.nil_append, assign, hnone, SectionFault.before]
      cases i.address? <;> rfl
    | key :: next :: rest, _ =>
      simp only [List.nil_append, assign, hnone, SectionFault.before]
      cases i.address? <;> rfl
  | cons key q ih =>
    rw [find?_cons] at hw
    obtain ⟨next, hnext, hw⟩ := Option.bind_eq_some_iff.mp hw
    obtain ⟨entries, hentries, hfind⟩ := Option.bind_eq_some_iff.mp hnext
    obtain ⟨a, haddress⟩ := exists_address_of_entries? hentries
    have hmore : q ++ left ≠ [] := List.append_ne_nil_of_right_ne_nil q hleft
    rw [List.cons_append, assign]
    · simp only [haddress, hentries, hfind]
      exact ih hw
    · exact hmore

end Store

namespace Layers

variable {l l' : Layers} {s t : Store} {source : Source} {value : Item} {path : List String}

/-- Under a beginning of a path, neither empty nor the whole, the layer of a source has
something that is no mapping. -/
structure StoppedAt (l : Layers) (s : Store) (source : Source) (path q : List String)
    (w : Item) : Prop where
  before : q <+: path
  notAll : q ≠ path
  notNil : q ≠ []
  found : l.itemAt? s q source = some w
  notMapping : s.entries? w = Option.none

/-- **A setting cannot be put into a layer** that stops its way, and nothing is made. -/
theorem assign_of_stoppedAt (value : Item) {q : List String} {w : Item}
    (h : l.StoppedAt s source path q w) :
    l.assign s source path value
      = (.error (.before (s.kind w) (path.drop q.length)), l, s) := by
  obtain ⟨layer, hlayer, hw⟩ := Option.bind_eq_some_iff.mp h.found
  obtain ⟨left, rfl⟩ := h.before
  have hleft : left ≠ [] := fun hnil => h.notAll (by rw [hnil, List.append_nil])
  have hstopped := Store.assign_of_stopped value hw h.notMapping hleft
  simp only [Layers.assign, ensure, hlayer, hstopped, List.drop_left]

/-- Where it cannot be put, the way is stopped, if the layer is a mapping or is missing. -/
theorem exists_stoppedAt_of_assign
    (hlayer : ∀ layer, l source = some layer → (s.entries? layer).isSome = true)
    {fault : SectionFault} (h : l.assign s source path value = (.error fault, l', t)) :
    ∃ q w, l.StoppedAt s source path q w := by
  have hfailed : (l.assign s source path value).1 = .error fault := by rw [h]
  cases hsource : l source with
  | none =>
    have hempty : (s.add (.mapping [])).2.entries? (s.add (.mapping [])).1 = some [] :=
      Store.entries?_add
    have hok : (l.assign s source path value).1 = .ok () := by
      simp only [Layers.assign, ensure, hsource]
      exact Store.assign_isOk_iff.mpr (Store.not_blocked_of_empty hempty path)
    rw [hok] at hfailed
    cases hfailed
  | some layer =>
    have hblocked : s.Blocked layer path := by
      by_contra hfree
      have hok : (s.assign value layer path).1 = .ok () := Store.assign_isOk_iff.mpr hfree
      simp only [Layers.assign, ensure, hsource] at hfailed
      rw [hok] at hfailed
      cases hfailed
    obtain ⟨q, w, hq, hne, hw, hnone⟩ := hblocked
    refine ⟨q, w, hq, hne, ?_, by rw [itemAt?, hsource, Option.bind_some, hw], hnone⟩
    -- what stops the way is not the layer itself
    rintro rfl
    cases hw
    have hsome := hlayer layer hsource
    rw [hnone] at hsome
    cases hsome

end Layers

namespace Registry

open Setting (keyParts)

variable {r : Registry} {n : Nat} {key : String} {value : Item} {source : Source}

theorem setLayers_self (r : Registry) (n : Nat) : r.setLayers n (r.layers n) r.store = r := by
  have hsettings : r.settings.modify n (fun c => { c with layers := r.layers n })
      = r.settings := by
    refine List.ext_getElem? fun k => ?_
    rw [List.getElem?_modify]
    by_cases hk : n = k
    · subst hk
      cases hn : r.settings[n]? with
      | none => rfl
      | some c => simp [layers, hn]
    · simp [hk]
  unfold setLayers update
  rw [hsettings]

theorem assign_of_stoppedAt (value : Item) {q : List String} {w : Item}
    (h : (r.layers n).StoppedAt r.store source (keyParts key) q w) :
    r.assign n (keyParts key) value source
      = (.error (.blocked (.before (r.store.kind w) ((keyParts key).drop q.length))), r) := by
  rw [Registry.assign, Layers.assign_of_stoppedAt value h]
  exact congrArg _ (setLayers_self r n)

theorem exists_stoppedAt_of_assign {fault : SettingFault} {r' : Registry}
    (hlayer : ∀ layer, r.layers n source = some layer → (r.store.entries? layer).isSome = true)
    (h : r.assign n (keyParts key) value source = (.error fault, r')) :
    ∃ q w, (r.layers n).StoppedAt r.store source (keyParts key) q w := by
  unfold Registry.assign at h
  split at h
  · cases h
  · rename_i hassign
    exact Layers.exists_stoppedAt_of_assign hlayer hassign

/-- **When a change fails on its way.**  Let the layer of the source be missing or a
mapping.  The setting cannot be put there exactly when something under a beginning of the
key, neither empty nor the whole, is no mapping.  Then the registry is what it was, with no
layer and no section made and no watcher told, and the fault is one for a way that cannot go
on, if more than one part of the key is left, and else one for an item that cannot be put
there.  Otherwise the change goes on and tells the watchers. -/
theorem set_of_stopped [Stack] (key : String) (value : Item)
    (hlayer : ∀ layer, r.layers n source = some layer → (r.store.entries? layer).isSome = true) :
    ((∃ fault r', r.assign n (keyParts key) value source = (.error fault, r')) ↔
      ∃ q w, (r.layers n).StoppedAt r.store source (keyParts key) q w) ∧
    (∀ q w, (r.layers n).StoppedAt r.store source (keyParts key) q w →
      ∃ fault, r.assign n (keyParts key) value source = (.error (.blocked fault), r) ∧
        r.set n (keyParts key) value source = (.error (.blocked fault), r) ∧
        (q.length + 1 < (keyParts key).length → fault = .noSection (r.store.kind w)) ∧
        (q.length + 1 = (keyParts key).length → fault = .noAssignment (r.store.kind w))) ∧
    ((¬ ∃ q w, (r.layers n).StoppedAt r.store source (keyParts key) q w) →
      ∃ change r₁, r.assign n (keyParts key) value source = (.ok (), r₁) ∧
        r.set n (keyParts key) value source = announce change r₁ n) := by
  refine ⟨⟨?_, ?_⟩, ?_, ?_⟩
  · rintro ⟨fault, r', h⟩
    exact exists_stoppedAt_of_assign hlayer h
  · rintro ⟨q, w, h⟩
    exact ⟨_, _, assign_of_stoppedAt value h⟩
  · intro q w h
    have hassign := assign_of_stoppedAt value h
    refine ⟨_, hassign, set_of_assign_error hassign, fun hmore => ?_, fun hlast => ?_⟩
    · exact SectionFault.before_of_lt _ (by rw [List.length_drop]; omega)
    · exact SectionFault.before_of_eq _ (by rw [List.length_drop]; omega)
  · intro hfree
    cases hassign : r.assign n (keyParts key) value source with
    | mk outcome r₁ =>
      cases outcome with
      | error fault => exact absurd (exists_stoppedAt_of_assign hlayer hassign) hfree
      | ok =>
        have hset := set_eq_announce hassign
        exact ⟨_, r₁, rfl, hset⟩

open scoped Stack in
/-- Behind the level of the log there is no place for a setting, whether the level is met at
the last part of the key or before. -/
theorem set_behindLevel :
    (∀ layer, withLogFile.layers 0 .runtime = some layer →
      (withLogFile.store.entries? layer).isSome = true) ∧
    withLogFile.set 0 (keyParts "resfilter.logging.level.name") .null .runtime
      = (.error (.blocked (.noAssignment .text)), withLogFile) ∧
    withLogFile.set 0 (keyParts "resfilter.logging.level.name.short") .null .runtime
      = (.error (.blocked (.noSection .text)), withLogFile) := by
  have hlayer : ∀ layer, withLogFile.layers 0 .runtime = some layer →
      (withLogFile.store.entries? layer).isSome = true := by
    intro layer h
    cases h
    decide +kernel
  have hstopped (key : String) (hbefore : Setting.logLevel <+: keyParts key)
      (hall : Setting.logLevel ≠ keyParts key) :
      (withLogFile.layers 0).StoppedAt withLogFile.store .runtime (keyParts key) Setting.logLevel
        (.scalar (.text "DEBUG")) :=
    ⟨hbefore, hall, by decide, by rfl, rfl⟩
  refine ⟨hlayer, ?_, ?_⟩
  · obtain ⟨-, hfails, -⟩ := set_of_stopped (n := 0) "resfilter.logging.level.name" .null hlayer
    obtain ⟨fault, -, hset, -, hlast⟩ :=
      hfails _ _ (hstopped _ (by decide +kernel) (by decide +kernel))
    rw [hset, hlast (by decide +kernel)]
    rfl
  · obtain ⟨-, hfails, -⟩ :=
      set_of_stopped (n := 0) "resfilter.logging.level.name.short" .null hlayer
    obtain ⟨fault, -, hset, hmore, -⟩ :=
      hfails _ _ (hstopped _ (by decide +kernel) (by decide +kernel))
    rw [hset, hmore (by decide +kernel)]
    rfl

end Registry

end Winnow
