/-
Winnow/Predicate/Evaluation.lean

How tests are made.

`Predicate.evaluate` looks at the form of a predicate and leaves a chain to
`Chain.test`.  A chain is not tested from its last stage down.  `Chain.climb` goes
up from the last stage to the root and puts the stages in a row; then `testRow`
goes along the row from the root on and evaluates the predicate of each stage that
has one, until one does not hold.  A stage that follows a predicate of another form
ends the climb with a fault, before anything is evaluated.

The predicates in a row may hold chains in turn, so that evaluating and testing
call each other.  They come to an end because the predicates in the row of a chain
are smaller than the chain (`Chain.below_of_climb`).

`Predicate.test` is the test that a predicate makes by itself and `Predicate.call`
the same test made by calling it, which a probe does not allow.
-/
import Winnow.Predicate.Basic

namespace Winnow

/-! ### The row of stages -/

mutual

/-- Goes up to the root of a chain, putting each stage in front of those behind
it. -/
def Chain.climb (behind : List Stage) : Chain → Except TrialFault (List Stage)
  | .stage a parent own => climbParent (⟨a, own⟩ :: behind) parent

/-- Goes on with the parent of a stage. -/
def climbParent (behind : List Stage) : Option Predicate → Except TrialFault (List Stage)
  | none => .ok behind
  | some (.chain c) => c.climb behind
  | some p => .error (.notStage p.form)

end

/-- The predicate of a stage, where it has one, is of a size below `n`. -/
def Stage.Below (n : Nat) (s : Stage) : Prop := ∀ p, s.own = some p → sizeOf p < n

mutual

theorem Chain.below_of_climb {n : Nat} {behind row : List Stage} : {c : Chain} →
    c.climb behind = .ok row → sizeOf c ≤ n → (∀ s ∈ behind, s.Below n) → ∀ s ∈ row, s.Below n
  | .stage a parent own, h, hsize, hbehind => by
    rw [Chain.stage.sizeOf_spec] at hsize
    refine below_of_climbParent h (by omega) (List.forall_mem_cons.mpr ⟨?_, hbehind⟩)
    rintro p rfl
    rw [Option.some.sizeOf_spec] at hsize
    omega

theorem below_of_climbParent {n : Nat} {behind row : List Stage} : {parent : Option Predicate} →
    climbParent behind parent = .ok row → sizeOf parent ≤ n → (∀ s ∈ behind, s.Below n) →
      ∀ s ∈ row, s.Below n
  | none, h, _, hbehind => by
    cases h
    exact hbehind
  | some (.chain c), h, hsize, hbehind => by
    rw [Option.some.sizeOf_spec, Predicate.chain.sizeOf_spec] at hsize
    exact Chain.below_of_climb h (by omega) hbehind
  | some (.literal ..), h, _, _ => nomatch h
  | some (.anyOf _), h, _, _ => nomatch h
  | some (.negation _), h, _, _ => nomatch h
  | some (.probe ..), h, _, _ => nomatch h

end

/-! ### Evaluating and testing -/

mutual

/-- The course of evaluating a predicate. -/
def Predicate.evaluate (r : Resource) (p : Predicate) : Trial :=
  match p with
  | .literal a o s => .decided (a.accepts o r s)
  | .anyOf members => evaluateAny r members
  | .negation inner => (inner.evaluate r).negate
  | .chain c => c.test r
  | .probe label answer => ⟨[label], (answer r).mapError .probe⟩
termination_by (sizeOf p, 0, 0)

/-- The course of evaluating predicates one after another, until one holds. -/
def evaluateAny (r : Resource) (members : List Predicate) : Trial :=
  match members with
  | [] => .decided false
  | p :: ps => (p.evaluate r).orElse (evaluateAny r ps)
termination_by (sizeOf members, 0, 0)

/-- The course of testing with a chain. -/
def Chain.test (r : Resource) (c : Chain) : Trial :=
  match hrow : c.climb [] with
  | .ok row => testRow r (sizeOf c) row (Chain.below_of_climb hrow (Nat.le_refl _) nofun)
  | .error fault => .failed fault
termination_by (sizeOf c, 1, 0)

/-- The course of testing with a row of stages whose predicates are of sizes below
`n`, until one does not hold. -/
def testRow (r : Resource) (n : Nat) (row : List Stage) (hrow : ∀ s ∈ row, s.Below n) : Trial :=
  match row with
  | [] => .decided true
  | s :: rest =>
    have hrest : ∀ s ∈ rest, s.Below n := fun s hs => hrow s (List.mem_cons_of_mem _ hs)
    match hs : s.own with
    | none => testRow r n rest hrest
    | some p =>
      have : sizeOf p < n := hrow s List.mem_cons_self p hs
      (p.evaluate r).andThen (testRow r n rest hrest)
termination_by (n, 0, row.length)

end

namespace Predicate

/-- The course of the test that a predicate makes by itself. -/
def test (r : Resource) : Predicate → Trial
  | chain c => c.test r
  | probe label answer => ⟨[label], (answer r).mapError .probe⟩
  | p => p.evaluate r

/-- The course of the test that is made by calling a predicate. -/
def call (r : Resource) : Predicate → Trial
  | p@(probe ..) => .failed (.notCallable p.form)
  | p => p.test r

end Predicate

end Winnow
