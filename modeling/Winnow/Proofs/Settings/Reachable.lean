/-
Winnow/Proofs/Settings/Reachable.lean

The registries that a program can reach.

A program makes new objects and changes objects that it has, makes settings,
loads, sets and clears them, reads all of them merged, and has watchers come and
go, in any order and with any outcome.  Nothing dangles in any registry that it
gets to (`Reachable.sound`).
-/
import Winnow.Proofs.Settings.Sound

namespace Winnow.Registry

open Store (AddsTo)

variable {r : Registry} {s : Store}

/-- The registries that a program reaches.  The objects that it hands over are
ones that it has: scalars, or objects in the store. -/
inductive Reachable [Stack] : Registry → Prop
  | empty : Reachable empty
  /-- Makes a new object of objects. -/
  | new {r : Registry} {c : Cell} : Reachable r → r.store.Fits c →
      Reachable { r with store := (r.store.add c).2 }
  /-- Makes a float that is no number. -/
  | mark {r : Registry} {m : Nat} : Reachable r →
      Reachable { r with store := { r.store with nextMark := m } }
  /-- Changes a part of an object. -/
  | mutate {r : Registry} {i value : Item} {path : List Value} {s : Store} : Reachable r →
      r.store.Holds value → r.store.setAt i value path = .ok s →
      Reachable { r with store := s }
  | add {r : Registry} (f : Files) (file : Option String) (environment : Option Environment) :
      Reachable r → Reachable (r.add f file environment).2
  | globalSettings {r : Registry} (f : Files) (file : Option String) (environment : Environment) :
      Reachable r → Reachable (r.globalSettings f file environment).2
  | setGlobal {r : Registry} (n : Nat) : Reachable r → Reachable { r with global := some n }
  | loadFile {r : Registry} (n : Nat) (f : Files) (path : String) (source : Source) :
      Reachable r → Reachable (r.loadFile n f path source).2
  | loadCopy {r : Registry} (n : Nat) {value : Item} (source : Source) : Reachable r →
      r.store.Holds value → Reachable (r.loadCopy n value source)
  | set {r : Registry} (n : Nat) (path : List String) {value : Item} (source : Source) :
      Reachable r → r.store.Holds value → Reachable (r.set n path value source).2
  | clear {r : Registry} (n : Nat) (source : Option Source) : Reachable r →
      Reachable (r.clear n source)
  | merged {r : Registry} (n : Nat) : Reachable r → Reachable (r.merged n).2
  | introduce {r : Registry} (name : String) {reaction : Reaction} : Reachable r →
      reaction.Held r.store → Reachable (r.introduce name reaction)
  | addWatcher {r : Registry} (n : Nat) (name : String) : Reachable r →
      Reachable (r.update n (·.addWatcher name))
  | removeWatcher {r : Registry} (n : Nat) (name : String) : Reachable r →
      Reachable (r.update n (·.removeWatcher name))

/-- **Nothing dangles** in any registry that a program reaches. -/
theorem Reachable.sound [Stack] (h : r.Reachable) : r.Sound := by
  induction h with
  | empty => exact sound_empty
  | new _ hc ih => exact ih.withStore ((AddsTo.refl.add hc).leadsTo ih.store)
  | mark _ ih => exact ih.withStore (Store.mark_leadsTo ih.store _)
  | mutate _ hv hset ih => exact ih.withStore (Store.setAt_leadsTo ih.store hv hset)
  | add f file environment _ ih => exact add_sound ih f file environment
  | globalSettings f file environment _ ih => exact globalSettings_sound ih f file environment
  | setGlobal n _ ih => exact ⟨ih.store, ih.settings, ih.reactions⟩
  | loadFile n f path source _ ih => exact loadFile_sound ih n f path source
  | loadCopy n source _ hv ih => exact loadCopy_sound ih hv n source
  | set n path source _ hv ih => exact (set_leadsTo ih hv n path source).sound
  | clear n source _ ih => exact clear_sound ih n source
  | merged n _ ih => exact merged_sound ih n
  | introduce name _ hreaction ih => exact introduce_sound ih hreaction name
  | addWatcher n name _ ih => exact ih.update fun c hc => ih.settings c hc
  | removeWatcher n name _ ih => exact ih.update fun c hc => ih.settings c hc

theorem Reachable.addsTo [Stack] (h : r.Reachable) (hadds : r.store.AddsTo s) :
    Reachable { r with store := s } := by
  induction hadds with
  | refl => exact h
  | add _ hc ih => exact ih.new hc

/-- A program may put any value into the store whose keys come once. -/
theorem Reachable.place [Stack] (h : r.Reachable) {v : Value} (hv : v.Proper) :
    Reachable { r with store := (r.store.place v).2 } :=
  h.addsTo (Store.place_addsTo r.store v hv).1

end Winnow.Registry
