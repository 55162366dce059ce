/-
Winnow/Proofs/Chain/Building.lean

What a built chain accepts.

A chain is built from an entry point by a row of calls, each with its literals
(`EntryPoint.build`).  Building never fails (`build_eq`), and it adds exactly one
stage for each call behind the bare stage of the entry point
(`stages_foldl_extend`).  So the test of a built chain comes to a yes exactly when
every call does: a plain call when one of its literals stands in the relation to
the attribute, a negated call when none does (`test_build`).
-/
import Winnow.Definition.Basic
import Winnow.Proofs.Chain.Evaluation

namespace Winnow

/-! ### Entry points -/

/-- The ways to begin a chain: one of the four selectors, or an attribute given
as a value. -/
inductive EntryPoint
  | selector (s : Selector)
  | attribute (a : Attribute)

namespace EntryPoint

/-- The attribute that the chain is anchored at. -/
def anchor : EntryPoint → Attribute
  | selector s => s.anchor
  | .attribute a => a

/-- The bare chain of an entry point. -/
def chain : EntryPoint → Except DefinitionFault Chain
  | selector s => .ok s.chain
  | .attribute a => Chain.ofValue (.scalar (.attribute a))

theorem chain_eq (e : EntryPoint) : e.chain = .ok (.start e.anchor) := by
  cases e <;> rfl

end EntryPoint

/-! ### Calls in a row -/

/-- Makes calls one after another, each with literals given as values. -/
def Chain.addCalls (c : Chain) : List Step → Except DefinitionFault Chain
  | [] => .ok c
  | s :: rest => do (← c.addValues s.call (s.literals.map .text)).addCalls rest

/-- The chain that an entry point and a row of calls make. -/
def EntryPoint.build (e : EntryPoint) (calls : List Step) : Except DefinitionFault Chain := do
  (← e.chain).addCalls calls

theorem literalsFrom_texts (literals : List String) (position : Nat) :
    literalsFrom position (literals.map Value.text) = .ok literals := by
  induction literals generalizing position with
  | nil => rfl
  | cons s rest ih =>
    rw [List.map_cons, literalsFrom]
    have hs : (Shaped.shape (Value.text s)).text? = some s := rfl
    simp only [hs, ih]
    rfl

theorem addValues_texts (c : Chain) (call : Call) (literals : List String) :
    c.addValues call (literals.map Value.text) = .ok (c.add call literals) := by
  unfold Chain.addValues literalsOf
  rw [literalsFrom_texts]
  rfl

theorem addCalls_eq (c : Chain) (calls : List Step) :
    c.addCalls calls = .ok (calls.foldl Step.extend c) := by
  induction calls generalizing c with
  | nil => rfl
  | cons s rest ih =>
    rw [Chain.addCalls, addValues_texts]
    exact ih (s.extend c)

/-- Literals that are texts are never refused, so every row of calls makes a
chain. -/
theorem build_eq (e : EntryPoint) (calls : List Step) :
    e.build calls = .ok (calls.foldl Step.extend (.start e.anchor)) := by
  unfold EntryPoint.build
  rw [e.chain_eq]
  exact addCalls_eq _ calls

/-! ### The stages of a built chain -/

/-- The stage that a call adds behind a stage anchored at an attribute. -/
def Step.stage (a : Attribute) (s : Step) : Stage := ⟨a, some (s.call.predicate a s.literals)⟩

theorem stages_extend {c : Chain} {row : List Stage} (h : c.stages = .ok row) (s : Step) :
    (s.extend c).stages = .ok (row ++ [s.stage c.anchor]) := by
  have hstep : (s.extend c).stages = c.stages.map fun before => before ++ [s.stage c.anchor] := rfl
  rw [hstep, h]
  rfl

theorem stages_foldl_extend {c : Chain} {row : List Stage} (h : c.stages = .ok row)
    (calls : List Step) :
    (calls.foldl Step.extend c).stages = .ok (row ++ calls.map (Step.stage c.anchor)) := by
  induction calls generalizing c row with
  | nil => simpa using h
  | cons s rest ih =>
    have hrest := ih (stages_extend h s)
    rw [List.append_assoc] at hrest
    exact hrest

/-! ### What a call accepts -/

/-- Whether a literal of a call stands in the relation to a resource. -/
def Step.meets (a : Attribute) (r : Resource) (s : Step) : Bool :=
  s.literals.any fun l => a.accepts s.call.operation r l

theorem judgeAny_literals (a : Attribute) (o : Operation) (r : Resource) (texts : List String) :
    judgeAny r (texts.map (Predicate.literal a o))
      = .decided (texts.any fun l => a.accepts o r l) := by
  induction texts with
  | nil => rfl
  | cons t rest ih =>
    rw [List.map_cons, judgeAny, ih, Predicate.judge, Trial.orElse_decided, List.any_cons]

/-- The negation of a call stands around the whole group of its literals. -/
theorem judgeOwn_stage (a : Attribute) (r : Resource) (s : Step) :
    judgeOwn r (s.stage a).own = .decided (s.meets a r != s.call.negated) := by
  have hgroup : (Predicate.anyLiteral a s.call.operation s.literals).judge r
      = .decided (s.meets a r) := judgeAny_literals a s.call.operation r s.literals
  simp only [Step.stage, judgeOwn, Call.predicate]
  cases s.call.negated with
  | false => simpa using hgroup
  | true =>
    simp only [if_true, Predicate.judge, hgroup, Trial.negate_decided]
    simp

theorem judgeStages_calls (a : Attribute) (r : Resource) (calls : List Step) :
    judgeStages r (calls.map (Step.stage a))
      = .decided (calls.all fun s => s.meets a r != s.call.negated) := by
  induction calls with
  | nil => rfl
  | cons s rest ih =>
    rw [List.map_cons, judgeStages, ih, judgeOwn_stage, Trial.andThen_decided, List.all_cons]

theorem test_foldl_extend (a : Attribute) (r : Resource) (calls : List Step) :
    (calls.foldl Step.extend (.start a)).test r
      = .decided (calls.all fun s => s.meets a r != s.call.negated) := by
  have hstages := stages_foldl_extend (c := .start a) rfl calls
  rw [Chain.test_eq, judge_eq_judgeStages, hstages]
  show (Trial.decided true).andThen (judgeStages r (calls.map (Step.stage a))) = _
  rw [Trial.andThen_decided_true, judgeStages_calls]

/-! ### What a built chain accepts -/

/-- **A built chain is a conjunction of calls**: its test comes to a yes for a
resource exactly when, for every call, some literal stands in the relation to the
attribute just if the call is a plain one. -/
theorem test_build (e : EntryPoint) (calls : List Step) (r : Resource) :
    ∃ c answer, e.build calls = .ok c ∧ c.test r = .decided answer ∧
      (answer = true ↔ ∀ s ∈ calls,
        ((∃ l ∈ s.literals, s.call.operation.test (e.anchor.fold (e.anchor.get r))
          (e.anchor.fold l) = true) ↔ s.call.negated = false)) := by
  refine ⟨_, _, build_eq e calls, test_foldl_extend e.anchor r calls, ?_⟩
  rw [List.all_eq_true]
  refine forall_congr' fun s => forall_congr' fun _ => ?_
  have hmeets : s.meets e.anchor r = true ↔
      ∃ l ∈ s.literals, s.call.operation.test (e.anchor.fold (e.anchor.get r))
        (e.anchor.fold l) = true := List.any_eq_true
  rw [← hmeets]
  cases s.meets e.anchor r <;> cases s.call.negated <;> simp

/-- The second call holds of no literal, so nothing else counts. -/
example : ((EntryPoint.selector .names).build
      [⟨⟨.starts, false⟩, ["a", "B"]⟩, ⟨⟨.contains, true⟩, ["TEST"]⟩]).map
    (fun c => (c.test ⟨"backend_test", "/backend_test"⟩).outcome) = .ok (.ok false) := by cbv

end Winnow
