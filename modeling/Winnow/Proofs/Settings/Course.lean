/-
Winnow/Proofs/Settings/Course.lean

The course of a change, with all that watchers make of it.

A change puts a setting under its key, merges the layers, and tells the watchers one
after another; each of them does a row of things, and changes may be among them.
`Course` is this as a relation, with one rule for each thing that can happen next,
and what every change keeps is proved by one induction on it.  A condition can be put
on the beginning of each round, when the row of watchers is read (`Course.mono`).

What is done is the course of a change (`course_set`).
-/
import Winnow.Settings.Registry

namespace Winnow

/-! ### What is done -/

namespace Action

/-- An action does no more than change rows of watchers. -/
def IsEdit : Action → Prop
  | .dismiss .. | .invite .. => True
  | .fail | .set .. => False

end Action

/-- What is done in the course of a change: the change itself, telling watchers of merged
settings, or the things that one of them does. -/
inductive Task
  | change (source : Source) (n : Nat) (path : List String) (value : Item)
  | round (item : Item) (names : List String)
  | actions (name : String) (actions : List Action)

namespace Registry

/-- What a task that is begun in a registry comes to, where each round has a property: its
settings, what it tells, and the registry in which it is begun. -/
inductive Course [Stack] (P : Nat → Item → Registry → Prop) : Task → Registry → Outcome Unit → Prop
  /-- Too many rounds lie one within another. -/
  | limit {r : Registry} (source : Source) (n : Nat) (path : List String) (value : Item) :
      Course P (.change source n path value) r (.error (.layer .tooDeep), r)
  | blocked {r r₁ : Registry} {source : Source} {n : Nat} {path : List String} {value : Item}
      {fault : SettingFault} : r.assign n path value source = (.error fault, r₁) →
      Course P (.change source n path value) r (.error fault, r₁)
  | unmerged {r r₁ r₂ : Registry} {source : Source} {n : Nat} {path : List String} {value : Item}
      {fault : SettingFault} : r.assign n path value source = (.ok (), r₁) →
      r₁.merged n = (.error fault, r₂) → Course P (.change source n path value) r (.error fault, r₂)
  | told {r r₁ r₂ : Registry} {source : Source} {n : Nat} {path : List String} {value item : Item}
      {o : Outcome Unit} : r.assign n path value source = (.ok (), r₁) →
      r₁.merged n = (.ok item, r₂) → P n item r₂ → Course P (.round item (r₂.watchers n)) r₂ o →
      Course P (.change source n path value) r o
  | nobody {r : Registry} (item : Item) : Course P (.round item []) r (.ok (), r)
  | failed {r r₁ : Registry} {item : Item} {name : String} {fault : SettingFault}
      (rest : List String) :
      Course P (.actions name (r.actionsOf name item)) (r.note name item) (.error fault, r₁) →
      Course P (.round item (name :: rest)) r (.error fault, r₁)
  | next {r r₁ : Registry} {item : Item} {name : String} {rest : List String} {o : Outcome Unit} :
      Course P (.actions name (r.actionsOf name item)) (r.note name item) (.ok (), r₁) →
      Course P (.round item rest) r₁ o → Course P (.round item (name :: rest)) r o
  | nothing {r : Registry} (name : String) : Course P (.actions name []) r (.ok (), r)
  | fail {r : Registry} (name : String) (rest : List Action) :
      Course P (.actions name (.fail :: rest)) r (.error (.watcher name), r)
  | edit {r : Registry} {name : String} {action : Action} {rest : List Action} {o : Outcome Unit} :
      action.IsEdit → Course P (.actions name rest) (r.edit action) o →
      Course P (.actions name (action :: rest)) r o
  | stopped {r r₁ : Registry} {name : String} {source : Source} {n : Nat} {path : List String}
      {value : Item} {fault : SettingFault} (rest : List Action) :
      Course P (.change source n path value) r (.error fault, r₁) →
      Course P (.actions name (.set n path value source :: rest)) r (.error fault, r₁)
  | changed {r r₁ : Registry} {name : String} {source : Source} {n : Nat} {path : List String}
      {value : Item} {rest : List Action} {o : Outcome Unit} :
      Course P (.change source n path value) r (.ok (), r₁) →
      Course P (.actions name rest) r₁ o →
      Course P (.actions name (.set n path value source :: rest)) r o

variable {P Q : Nat → Item → Registry → Prop} {task : Task} {r : Registry} {o : Outcome Unit}

theorem Course.mono [Stack] (h : Course P task r o)
    (hPQ : ∀ n item q, P n item q → Q n item q) : Course Q task r o := by
  induction h with
  | limit source n path value => exact .limit source n path value
  | blocked hassign => exact .blocked hassign
  | unmerged hassign hmerged => exact .unmerged hassign hmerged
  | told hassign hmerged hP _ ih => exact .told hassign hmerged (hPQ _ _ _ hP) ih
  | nobody item => exact .nobody item
  | failed rest _ ih => exact .failed rest ih
  | next _ _ ih ih' => exact .next ih ih'
  | nothing name => exact .nothing name
  | fail name rest => exact .fail name rest
  | edit hedit _ ih => exact .edit hedit ih
  | stopped rest _ ih => exact .stopped rest ih
  | changed _ _ ih ih' => exact .changed ih ih'

/-! ### What changes do -/

variable {change : Change}

/-- A function has the course of a change. -/
def HasCourse [Stack] (change : Change) : Prop := ∀ source r n path value,
  Course (fun _ _ _ => True) (.change source n path value) r (change source r n path value)

theorem course_performAll [Stack] (h : HasCourse change) (name : String) (actions : List Action)
    (r : Registry) : Course (fun _ _ _ => True) (.actions name actions) r
      (performAll change name actions r) := by
  induction actions generalizing r with
  | nil => exact .nothing name
  | cons action rest ih =>
    rw [performAll]
    cases action with
    | fail => exact .fail name rest
    | dismiss n other => exact .edit trivial (ih _)
    | invite n other => exact .edit trivial (ih _)
    | set n path value source =>
      have hfirst := h source r n path value
      rw [perform]
      split
      · rename_i r₁ heq
        rw [heq] at hfirst
        exact .changed hfirst (ih r₁)
      · rename_i fault r₁ heq
        rw [heq] at hfirst
        exact .stopped rest hfirst

theorem course_inform [Stack] (h : HasCourse change) (item : Item) (names : List String)
    (r : Registry) :
    Course (fun _ _ _ => True) (.round item names) r (inform change item names r) := by
  induction names generalizing r with
  | nil => exact .nobody item
  | cons name rest ih =>
    have hfirst := course_performAll h name (r.actionsOf name item) (r.note name item)
    rw [inform]
    split
    · rename_i r₁ heq
      rw [heq] at hfirst
      exact .next hfirst (ih r₁)
    · rename_i fault r₁ heq
      rw [heq] at hfirst
      exact .failed rest hfirst

/-- By induction on how many rounds may lie one within another. -/
theorem course_setTo [Stack] (depth : Nat) : HasCourse (setTo depth) := by
  induction depth with
  | zero => exact fun source r n path value => .limit source n path value
  | succ depth ih =>
    intro source r n path value
    rw [setTo]
    split
    · rename_i r₁ hassign
      unfold announce
      split
      · rename_i item r₂ hmerged
        exact .told hassign hmerged trivial (course_inform ih item _ r₂)
      · rename_i fault r₂ hmerged
        exact .unmerged hassign hmerged
    · rename_i fault r₁ hassign
      exact .blocked hassign

/-- **What is done is the course of a change.** -/
theorem course_set [Stack] (r : Registry) (n : Nat) (path : List String) (value : Item)
    (source : Source) : Course (fun _ _ _ => True) (.change source n path value) r
      (r.set n path value source) :=
  course_setTo (Stack.rounds + 1) source r n path value

end Registry

end Winnow
