/-
Winnow/Proofs/Chain/Narrowing.lean

Calls that let through less than others.

An operation asks for an occurrence of the literal and says what may stand around it.
Where one operation lets stand only what another lets stand as well, its yes is a yes
of the other (`Operation.test_of_implies`).  This goes up through the group of a
call's literals, in one direction as it is and in the other under a negation
(`Call.Implies`), and through the test of the chain before it, which is made first and is
the same for every call (`Chain.test_add`).

Main result: the eight calls that can be added to a chain, with the same literals, in the
order of what they let through (`narrows_inOrder`).
-/
import Winnow.Proofs.Chain.Evaluation
import Winnow.Proofs.Chain.IgnoringCase

namespace Winnow

variable {r : Resource} {literals : List String}

/-! ### Operations -/

namespace Operation

variable {o p : Operation} {text literal : String}

/-- What the first operation lets stand around a literal, the second lets stand as
well. -/
def Implies (o p : Operation) : Prop :=
  ∀ before after, o.Leaves before after → p.Leaves before after

theorem equals_implies_starts : equals.Implies starts := fun _ _ h => h.1

theorem equals_implies_ends : equals.Implies ends := fun _ _ h => h.2

theorem implies_contains (o : Operation) : o.Implies contains := fun _ _ _ => trivial

theorem test_of_implies (h : o.Implies p) (htest : o.test text literal = true) :
    p.test text literal = true := by
  obtain ⟨before, after, hoccurs⟩ := test_eq_true_iff.mp htest
  exact test_eq_true_iff.mpr ⟨before, after, hoccurs.split, h before after hoccurs.leaves⟩

/-- An operation asks for the literal between two texts. -/
theorem test_eq_true_iff_append :
    o.test text literal = true ↔
      ∃ before after, text = before ++ literal ++ after
        ∧ o.Leaves before.toList after.toList := by
  rw [test_eq_true_iff]
  constructor
  · rintro ⟨before, after, hsplit, hleaves⟩
    refine ⟨String.ofList before, String.ofList after, String.toList_inj.mp ?_, ?_⟩
    · simpa only [String.toList_append, String.toList_ofList] using hsplit
    · simpa only [String.toList_ofList] using hleaves
  · rintro ⟨before, after, rfl, hleaves⟩
    exact ⟨before.toList, after.toList, by simp only [String.toList_append], hleaves⟩

theorem starts_eq_true_iff : starts.test text literal = true ↔ ∃ rest, text = literal ++ rest := by
  rw [test_eq_true_iff_append]
  constructor
  · rintro ⟨before, after, rfl, hbefore⟩
    obtain rfl : before = "" := String.toList_eq_nil_iff.mp hbefore
    exact ⟨after, by rw [String.empty_append]⟩
  · rintro ⟨rest, rfl⟩
    exact ⟨"", rest, by rw [String.empty_append], rfl⟩

theorem ends_eq_true_iff : ends.test text literal = true ↔ ∃ rest, text = rest ++ literal := by
  rw [test_eq_true_iff_append]
  constructor
  · rintro ⟨before, after, rfl, hafter⟩
    obtain rfl : after = "" := String.toList_eq_nil_iff.mp hafter
    exact ⟨before, by rw [String.append_empty]⟩
  · rintro ⟨rest, rfl⟩
    exact ⟨rest, "", by rw [String.append_empty], rfl⟩

theorem contains_eq_true_iff :
    contains.test text literal = true ↔ ∃ left right, text = left ++ literal ++ right := by
  rw [test_eq_true_iff_append]
  simp only [Leaves, and_true]

end Operation

/-! ### Calls -/

/-- The first call lets through no more than the second: the operation does, or, between
negated calls, that of the second does. -/
inductive Call.Implies : Call → Call → Prop
  | plain {o p : Operation} : o.Implies p → Implies ⟨o, false⟩ ⟨p, false⟩
  | negated {o p : Operation} : o.Implies p → Implies ⟨p, true⟩ ⟨o, true⟩

theorem Step.meets_of_implies {o p : Operation} (h : o.Implies p) {m n : Bool} {a : Attribute}
    (hmeets : Step.meets a r ⟨⟨o, m⟩, literals⟩ = true) :
    Step.meets a r ⟨⟨p, n⟩, literals⟩ = true := by
  obtain ⟨l, hl, htest⟩ := List.any_eq_true.mp hmeets
  exact List.any_eq_true.mpr ⟨l, hl, Operation.test_of_implies h htest⟩

theorem Call.Implies.accepts {c d : Call} (h : c.Implies d) {a : Attribute}
    (hc : (Step.meets a r ⟨c, literals⟩ != c.negated) = true) :
    (Step.meets a r ⟨d, literals⟩ != d.negated) = true := by
  cases h with
  | plain h =>
    rw [Bool.bne_false] at hc ⊢
    exact Step.meets_of_implies h hc
  | negated h =>
    rw [Bool.bne_true, Bool.not_eq_true'] at hc ⊢
    -- a literal that is met by the stricter operation would be met by the other
    exact Bool.eq_false_iff.mpr fun hmeets =>
      Bool.eq_false_iff.mp hc (Step.meets_of_implies h hmeets)

/-! ### Chains -/

namespace Chain

variable {c d e : Chain} {call other : Call}

/-- The test of a chain comes to a yes. -/
def Accepts (c : Chain) (r : Resource) : Prop := (c.test r).outcome = .ok true

/-- A chain accepts no resource that another does not accept. -/
def Narrows (c d : Chain) : Prop := ∀ r, c.Accepts r → d.Accepts r

/-- **A call adds to the test of a chain** what its literals come to. -/
theorem test_add (c : Chain) (call : Call) (literals : List String) (r : Resource) :
    (c.add call literals).test r
      = (c.test r).andThen (.decided (Step.meets c.anchor r ⟨call, literals⟩ != call.negated)) := by
  have hown := judgeOwn_stage c.anchor r ⟨call, literals⟩
  rw [test_eq, test_eq, ← hown]
  rfl

theorem accepts_add_iff : (c.add call literals).Accepts r ↔
    c.Accepts r ∧ (Step.meets c.anchor r ⟨call, literals⟩ != call.negated) = true := by
  unfold Accepts
  rw [test_add]
  constructor
  · intro h
    by_cases hc : (c.test r).outcome = .ok true
    · rw [Trial.andThen_of_ok_true hc] at h
      exact ⟨hc, Except.ok.inj h⟩
    · rw [Trial.andThen_of_ne hc] at h
      exact absurd h hc
  · rintro ⟨hc, hcall⟩
    rw [Trial.andThen_of_ok_true hc]
    exact congrArg Except.ok hcall

/-- A call lets through nothing that the chain does not. -/
theorem add_narrows (c : Chain) (call : Call) (literals : List String) :
    (c.add call literals).Narrows c :=
  fun _ h => (accepts_add_iff.mp h).1

theorem add_narrows_add (h : call.Implies other) (c : Chain) (literals : List String) :
    (c.add call literals).Narrows (c.add other literals) := by
  intro r haccepts
  obtain ⟨hc, hcall⟩ := accepts_add_iff.mp haccepts
  exact accepts_add_iff.mpr ⟨hc, h.accepts hcall⟩

/-- **Calls in the order of what they let through.**  Each operation asks for exactly one
way to take the text apart.  So of the plain calls with the same literals `matching` lets
through least, then `starting` and `ending`, then `containing`, and then the chain itself;
of the negated ones `not_containing` lets through least and `not_matching` most. -/
theorem narrows_inOrder (c : Chain) (literals : List String) :
    (∀ text literal : String,
      (Operation.starts.test text literal = true ↔ ∃ rest, text = literal ++ rest) ∧
      (Operation.ends.test text literal = true ↔ ∃ rest, text = rest ++ literal) ∧
      (Operation.contains.test text literal = true ↔
        ∃ left right, text = left ++ literal ++ right) ∧
      (Operation.equals.test text literal = true ↔ text = literal)) ∧
    (∀ call, c.addValues call (literals.map Value.text) = .ok (c.add call literals)) ∧
    (c.add ⟨.equals, false⟩ literals).Narrows (c.add ⟨.starts, false⟩ literals) ∧
    (c.add ⟨.equals, false⟩ literals).Narrows (c.add ⟨.ends, false⟩ literals) ∧
    (c.add ⟨.starts, false⟩ literals).Narrows (c.add ⟨.contains, false⟩ literals) ∧
    (c.add ⟨.ends, false⟩ literals).Narrows (c.add ⟨.contains, false⟩ literals) ∧
    (c.add ⟨.contains, false⟩ literals).Narrows c ∧
    (c.add ⟨.contains, true⟩ literals).Narrows (c.add ⟨.starts, true⟩ literals) ∧
    (c.add ⟨.contains, true⟩ literals).Narrows (c.add ⟨.ends, true⟩ literals) ∧
    (c.add ⟨.starts, true⟩ literals).Narrows (c.add ⟨.equals, true⟩ literals) ∧
    (c.add ⟨.ends, true⟩ literals).Narrows (c.add ⟨.equals, true⟩ literals) := by
  refine ⟨fun text literal => ⟨Operation.starts_eq_true_iff, Operation.ends_eq_true_iff,
    Operation.contains_eq_true_iff, beq_iff_eq⟩, fun call => addValues_texts c call literals,
    ?_, ?_, ?_, ?_, ?_, ?_, ?_, ?_, ?_⟩
  · exact add_narrows_add (.plain Operation.equals_implies_starts) c literals
  · exact add_narrows_add (.plain Operation.equals_implies_ends) c literals
  · exact add_narrows_add (.plain (Operation.implies_contains .starts)) c literals
  · exact add_narrows_add (.plain (Operation.implies_contains .ends)) c literals
  · exact add_narrows c _ literals
  · exact add_narrows_add (.negated (Operation.implies_contains .starts)) c literals
  · exact add_narrows_add (.negated (Operation.implies_contains .ends)) c literals
  · exact add_narrows_add (.negated Operation.equals_implies_starts) c literals
  · exact add_narrows_add (.negated Operation.equals_implies_ends) c literals

end Chain

end Winnow
