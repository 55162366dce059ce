/-
Winnow/Predicate/Trial.lean

The course of one test of a resource: the labels of the probes that were asked,
in the order in which they were asked, and the answer.  An answer may be a
fault, which ends the test at once.

`Trial.andThen` asks the second part only when the first says yes, and
`Trial.orElse` only when it says no; neither asks it after a fault.
-/

namespace Winnow

/-- Why a test has no answer. -/
inductive TrialFault
  /-- A probe failed, with a text. -/
  | probe (text : String)
  /-- A predicate of a form that has no parent stands in the place of a
  stage. -/
  | notStage (form : String)
  /-- A predicate of a form that cannot be called was called. -/
  | notCallable (form : String)
  deriving DecidableEq, Repr

/-- What is said about a fault. -/
def TrialFault.message : TrialFault → String
  | probe text => text
  | notStage form => s!"'{form}' object has no attribute 'parent'"
  | notCallable form => s!"'{form}' object is not callable"

/-- The course of a test. -/
structure Trial where
  /-- The probes asked, in order. -/
  asked : List String
  /-- Yes or no, or a fault. -/
  outcome : Except TrialFault Bool

namespace Trial

/-- An answer for which no probe is asked. -/
def decided (answer : Bool) : Trial := ⟨[], .ok answer⟩

/-- A fault before any probe is asked. -/
def failed (fault : TrialFault) : Trial := ⟨[], .error fault⟩

/-- The first trial, and after it the second. -/
def followedBy (first second : Trial) : Trial := ⟨first.asked ++ second.asked, second.outcome⟩

/-- Yes when both say yes. -/
def andThen (first second : Trial) : Trial :=
  match first.outcome with
  | .ok true => first.followedBy second
  | _ => first

/-- Yes when one says yes. -/
def orElse (first second : Trial) : Trial :=
  match first.outcome with
  | .ok false => first.followedBy second
  | _ => first

/-- The opposite answer. -/
def negate (t : Trial) : Trial := ⟨t.asked, t.outcome.map (!·)⟩

variable {t u : Trial}

@[simp] theorem asked_decided (b : Bool) : (decided b).asked = [] := rfl

@[simp] theorem outcome_decided (b : Bool) : (decided b).outcome = .ok b := rfl

@[simp] theorem andThen_decided_true : (decided true).andThen t = t := rfl

@[simp] theorem andThen_decided_false : (decided false).andThen t = decided false := rfl

@[simp] theorem orElse_decided_true : (decided true).orElse t = decided true := rfl

@[simp] theorem orElse_decided_false : (decided false).orElse t = t := rfl

@[simp] theorem andThen_failed (f : TrialFault) : (failed f).andThen t = failed f := rfl

@[simp] theorem orElse_failed (f : TrialFault) : (failed f).orElse t = failed f := rfl

@[simp] theorem negate_decided (b : Bool) : (decided b).negate = decided (!b) := rfl

end Trial

end Winnow
