/-
Winnow/Proofs/Chain/Stages.lean

A chain is tested stage by stage.

`Chain.judge` asks the parent of a stage and then its own predicate.  The same
test can be read off the row of stages: `judgeStages` goes along the row from
the root on and ends at the first stage that does not say yes.  The two agree
on every chain (`judge_eq_judgeStages`); where the row does not exist, because
a stage follows something that is no chain, the test fails in the same way.
-/
import Winnow.Predicate.Basic

namespace Winnow

/-! ### Trials one after another -/

namespace Trial

variable {t u v : Trial}

@[simp] theorem andThen_decided (a b : Bool) :
    (decided a).andThen (decided b) = decided (a && b) := by
  cases a <;> rfl

@[simp] theorem orElse_decided (a b : Bool) :
    (decided a).orElse (decided b) = decided (a || b) := by
  cases a <;> rfl

theorem followedBy_assoc :
    (t.followedBy u).followedBy v = t.followedBy (u.followedBy v) := by
  simp only [followedBy, List.append_assoc]

theorem andThen_of_ok_true (h : t.outcome = .ok true) :
    t.andThen u = t.followedBy u := by
  simp only [andThen, h]

theorem andThen_of_ne (h : t.outcome ≠ .ok true) : t.andThen u = t := by
  unfold andThen
  split
  · exact absurd ‹t.outcome = .ok true› h
  · rfl

theorem andThen_true : t.andThen (decided true) = t := by
  by_cases h : t.outcome = .ok true
  · rw [andThen_of_ok_true h]
    simp only [followedBy, asked_decided, outcome_decided, List.append_nil, ← h]
  · exact andThen_of_ne h

/-- It does not matter how tests in a row are grouped. -/
theorem andThen_assoc : (t.andThen u).andThen v = t.andThen (u.andThen v) := by
  by_cases ht : t.outcome = .ok true
  · rw [andThen_of_ok_true ht, andThen_of_ok_true ht]
    by_cases hu : u.outcome = .ok true
    · rw [andThen_of_ok_true hu, andThen_of_ok_true (t := t.followedBy u) hu,
        followedBy_assoc]
    · rw [andThen_of_ne hu, andThen_of_ne (t := t.followedBy u) hu]
  · rw [andThen_of_ne ht, andThen_of_ne ht, andThen_of_ne ht]

end Trial

/-! ### The row of stages -/

/-- The course of a test along a row of stages, the root first. -/
def judgeStages (r : Resource) : List Stage → Trial
  | [] => .decided true
  | s :: rest => (judgeOwn r s.own).andThen (judgeStages r rest)

theorem judgeStages_append (r : Resource) (before after : List Stage) :
    judgeStages r (before ++ after)
      = (judgeStages r before).andThen (judgeStages r after) := by
  induction before with
  | nil => rfl
  | cons s rest ih => simp only [List.cons_append, judgeStages, ih, Trial.andThen_assoc]

/-- **Testing a chain is testing its stages**, from the root on; a chain without
a row of stages fails as the row does. -/
theorem judge_eq_judgeStages (r : Resource) : (c : Chain) →
    c.judge r = match c.stages with
      | .ok row => judgeStages r row
      | .error fault => .failed fault
  | .stage _ none own => by
    show (Trial.decided true).andThen (judgeOwn r own) = (judgeOwn r own).andThen (.decided true)
    rw [Trial.andThen_decided_true, Trial.andThen_true]
  | .stage a (some (.chain c)) own => by
    have ih := judge_eq_judgeStages r c
    have hjudge : (Chain.stage a (some (.chain c)) own).judge r
        = (c.judge r).andThen (judgeOwn r own) := rfl
    have hstages : (Chain.stage a (some (.chain c)) own).stages
        = c.stages.map fun before => before ++ [⟨a, own⟩] := rfl
    rw [hjudge, hstages, ih]
    cases c.stages with
    | error fault => rfl
    | ok row =>
      show _ = judgeStages r (row ++ [⟨a, own⟩])
      rw [judgeStages_append]
      simp only [judgeStages, Trial.andThen_true]
  | .stage _ (some (.literal ..)) _ => rfl
  | .stage _ (some (.anyOf _)) _ => rfl
  | .stage _ (some (.negation _)) _ => rfl
  | .stage _ (some (.probe ..)) _ => rfl

end Winnow
