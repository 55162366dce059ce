/-
Winnow/Proofs/Settings/ReadBack.lean

What is read after a change.

A setting that is put into the layer of a source, with nothing above it, is what is
read from then on, and is said to come from this source.  No value is different: it
uncovers what the sources below have (`Layers.below`), and does not cover it.

All of this is about the one key.  The layers before and after the change have the
same under it but for the layer of the source (`at?_of_assign`), unless an object
lies on the way twice (`Layers.Meet`).  It holds when the setting has been put there,
before anybody is told, and still when the watchers have been told and have made no
changes (`readsBack_set`).
-/
import Winnow.Proofs.Settings.Rounds

namespace Winnow

/-! ### Looking up after a change -/

namespace Layers

variable {l l' : Layers} {s t : Store} {source : Source} {path : List String} {value : Item}

/-- The layers of the sources below a source. -/
def below (l : Layers) (source : Source) : Layers :=
  fun other => if other.rank < source.rank then l other else Option.none

end Layers

/-! ### Registries -/

namespace Registry

open Setting (keyParts keyParts_ne_nil)

variable {r r₁ q : Registry} {n : Nat} {key : String} {path : List String} {value : Item}
  {source : Source}

theorem get_eq_of_find? {l : Layers} {s : Store} (h : r.find? n path = l.find? s path)
    (default : Item) : r.get n path default = l.get s path default := by
  show (((r.layers n).find? r.store path).map (·.2)).getD default = _
  rw [show (r.layers n).find? r.store path = l.find? s path from h]
  rfl

/-- A change that succeeds has put the setting into its layer. -/
theorem exists_assign_of_set [Stack] (hok : (r.set n path value source).1 = .ok ()) :
    ∃ r₁, r.assign n path value source = (.ok (), r₁) := by
  cases hassign : r.assign n path value source with
  | mk outcome r₁ =>
    cases outcome with
    | ok => exact ⟨r₁, rfl⟩
    | error fault =>
      rw [set_of_assign_error hassign] at hok
      cases hok

open scoped Stack in
/-- New settings in which a file names a file for the log, and the level of the log has been
set. -/
def withLogFile : Registry :=
  let (_, r) := empty.add .empty none none
  let (_, r) := r.set 0 ["resfilter", "logging", "file"] (.scalar (.text "x.log")) .file
  let (_, r) := r.set 0 ["resfilter", "logging", "level"] (.scalar (.text "DEBUG")) .runtime
  r

open scoped Stack in
/-- New settings in which a file and the program give the same section. -/
def withOneSection : Registry :=
  let (_, r) := empty.add .empty none none
  let (x, s) := r.store.add (.mapping [])
  let (_, r) := { r with store := s }.set 0 ["a"] x .file
  let (_, r) := r.set 0 ["a"] x .runtime
  r

open scoped Stack in
/-- What is put into a section shows in all layers that have it, so the highest of them is
said to be the source. -/
example : ((withOneSection.set 0 (keyParts "a.b") (.scalar (.integer 5)) .file).2.find? 0
    (keyParts "a.b")).map (·.1) = some .runtime := by
  decide +kernel

end Registry

end Winnow
