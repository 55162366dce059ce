/-
Winnow/Proofs/Chain/Sameness.lean

Which filters are built alike.

Predicates are compared part by part (`Predicate.same`).  What is built alike is
equal, whatever it is made of (`Predicate.eq_of_same`, `Chain.eq_of_same`), and so
it answers alike.  Of a chain that is built by calls the last stages are compared
and then the chains before them (`same_extend`), so that the comparison goes along
two rows of calls from their ends (`same_foldl_extend`).  A stage shows everything
that its call was made with, but for one thing: where there are no literals, nothing
is left of the operation (`Step.Alike`).

Main result: `same_build_iff`.
-/
import Mathlib.Data.List.Forall2
import Mathlib.Data.List.Induction
import Winnow.Predicate.Evaluation
import Winnow.Proofs.Chain.Building

namespace Winnow

/-! ### What is alike is equal -/

mutual

theorem Predicate.eq_of_same : {p q : Predicate} → p.same q = true → p = q
  | .literal a o s, q, h => by
    cases q with
    | literal b p t =>
      simp only [Predicate.same, Bool.and_eq_true, beq_iff_eq] at h
      obtain ⟨⟨rfl, rfl⟩, rfl⟩ := h
      rfl
    | _ => simp [Predicate.same] at h
  | .anyOf ps, q, h => by
    cases q with
    | anyOf qs =>
      rw [Predicate.same] at h
      rw [eq_of_sameMembers h]
    | _ => simp [Predicate.same] at h
  | .negation p, q, h => by
    cases q with
    | negation q =>
      rw [Predicate.same] at h
      rw [Predicate.eq_of_same h]
    | _ => simp [Predicate.same] at h
  | .chain c, q, h => by
    cases q with
    | chain d =>
      rw [Predicate.same] at h
      rw [Chain.eq_of_same h]
    | _ => simp [Predicate.same] at h
  | .probe .., q, h => by simp [Predicate.same] at h

theorem eq_of_sameMembers : {ps qs : List Predicate} → sameMembers ps qs = true → ps = qs
  | [], qs, h => by
    cases qs with
    | nil => rfl
    | cons q qs => simp [sameMembers] at h
  | p :: ps, qs, h => by
    cases qs with
    | nil => simp [sameMembers] at h
    | cons q qs =>
      rw [sameMembers, Bool.and_eq_true] at h
      rw [Predicate.eq_of_same h.1, eq_of_sameMembers h.2]

theorem Chain.eq_of_same : {c d : Chain} → c.same d = true → c = d
  | .stage a p own, .stage b q other, h => by
    simp only [Chain.same, Bool.and_eq_true, beq_iff_eq] at h
    obtain ⟨⟨rfl, hparent⟩, hown⟩ := h
    rw [eq_of_samePart hparent, eq_of_samePart hown]

theorem eq_of_samePart : {p q : Option Predicate} → samePart p q = true → p = q
  | none, q, h => by
    cases q with
    | none => rfl
    | some q => simp [samePart] at h
  | some p, q, h => by
    cases q with
    | none => simp [samePart] at h
    | some q =>
      rw [samePart] at h
      rw [Predicate.eq_of_same h]

end

/-! ### Calls that leave the same stage -/

/-- Two steps show as the same in a chain: both or neither are negated, they have the same
literals in the same order, and the same operation unless there are no literals. -/
structure Step.Alike (s t : Step) : Prop where
  negated : s.call.negated = t.call.negated
  literals : s.literals = t.literals
  operation : s.literals ≠ [] → s.call.operation = t.call.operation

theorem sameMembers_literals (a : Attribute) (o p : Operation) (ls ms : List String) :
    sameMembers (ls.map (Predicate.literal a o)) (ms.map (Predicate.literal a p)) = true ↔
      ls = ms ∧ (ls ≠ [] → o = p) := by
  induction ls generalizing ms with
  | nil => cases ms <;> simp [sameMembers]
  | cons l ls ih =>
    cases ms with
    | nil => simp [sameMembers]
    | cons m ms =>
      have hfirst : (Predicate.literal a o l).same (.literal a p m) = true ↔ o = p ∧ l = m := by
        simp [Predicate.same]
      rw [List.map_cons, List.map_cons, sameMembers, Bool.and_eq_true, hfirst, ih]
      constructor
      · rintro ⟨⟨hoperation, rfl⟩, rfl, -⟩
        exact ⟨rfl, fun _ => hoperation⟩
      · rintro ⟨hrow, hoperation⟩
        cases hrow
        have ho := hoperation (List.cons_ne_nil _ _)
        exact ⟨⟨ho, rfl⟩, rfl, fun _ => ho⟩

/-- The predicates of two calls are alike just if the calls leave the same stage. -/
theorem same_predicate (a : Attribute) (s t : Step) :
    (s.call.predicate a s.literals).same (t.call.predicate a t.literals) = true ↔ s.Alike t := by
  have hgroup := sameMembers_literals a s.call.operation t.call.operation s.literals t.literals
  have halike : s.Alike t ↔ s.call.negated = t.call.negated ∧ s.literals = t.literals ∧
      (s.literals ≠ [] → s.call.operation = t.call.operation) :=
    ⟨fun h => ⟨h.negated, h.literals, h.operation⟩, fun h => ⟨h.1, h.2.1, h.2.2⟩⟩
  rw [halike, ← hgroup]
  unfold Call.predicate Predicate.anyLiteral
  cases s.call.negated <;> cases t.call.negated <;> simp [Predicate.same]

theorem same_extend (c d : Chain) (s t : Step) :
    (s.extend c).same (t.extend d) = true ↔
      c.anchor = d.anchor ∧ c.same d = true ∧ s.Alike t := by
  have hparts : (s.extend c).same (t.extend d) = (c.anchor == d.anchor && c.same d &&
      (s.call.predicate c.anchor s.literals).same (t.call.predicate d.anchor t.literals)) := by
    simp only [Step.extend, Chain.add, Chain.same, samePart, Predicate.same]
  rw [hparts, Bool.and_eq_true, Bool.and_eq_true, beq_iff_eq, and_assoc]
  refine and_congr_right fun hanchor => and_congr_right fun _ => ?_
  rw [hanchor]
  exact same_predicate d.anchor s t

/-! ### Chains built by calls -/

theorem anchor_foldl_extend (c : Chain) (calls : List Step) :
    (calls.foldl Step.extend c).anchor = c.anchor :=
  List.foldlRecOn (motive := fun d : Chain => d.anchor = c.anchor) _ _ rfl fun _ hd _ _ => hd

/-- Two rows of calls build the same chain just if they begin at one attribute and are alike
call by call. -/
theorem same_foldl_extend (a b : Attribute) (calls others : List Step) :
    (calls.foldl Step.extend (.start a)).same (others.foldl Step.extend (.start b)) = true ↔
      a = b ∧ List.Forall₂ Step.Alike calls others := by
  -- the last calls are compared first, so both rows are taken from their ends
  rw [← List.forall₂_reverse_iff]
  induction calls using List.reverseRecOn generalizing others with
  | nil =>
    rcases List.eq_nil_or_concat others with rfl | ⟨others, t, rfl⟩
    · simp [Chain.same, Chain.start, samePart]
    · simp [Chain.same, Chain.start, samePart, Step.extend, Chain.add]
  | append_singleton calls s ih =>
    rcases List.eq_nil_or_concat others with rfl | ⟨others, t, rfl⟩
    · simp [Chain.same, Chain.start, samePart, Step.extend, Chain.add]
    · have hlast : List.Forall₂ Step.Alike (calls ++ [s]).reverse (others ++ [t]).reverse ↔
          s.Alike t ∧ List.Forall₂ Step.Alike calls.reverse others.reverse := by
        rw [List.reverse_concat, List.reverse_concat, List.forall₂_cons]
      have hanchor (c : Attribute) (row : List Step) :
          (row.foldl Step.extend (.start c)).anchor = c := anchor_foldl_extend _ row
      rw [List.concat_eq_append, List.foldl_concat, List.foldl_concat, same_extend, ih, hanchor,
        hanchor, hlast]
      constructor
      · rintro ⟨hab, ⟨-, hrest⟩, hst⟩
        exact ⟨hab, hst, hrest⟩
      · rintro ⟨hab, hst, hrest⟩
        exact ⟨hab, ⟨hab, hrest⟩, hst⟩

/-- **Built chains are alike exactly when they were built alike**: from the same attribute, by
as many calls, each of them negated or not and with the same literals as the other, and with
the same operation where there are literals.  Chains that are alike answer alike. -/
theorem same_build_iff (e₁ e₂ : EntryPoint) (calls₁ calls₂ : List Step) :
    ∃ c d, e₁.build calls₁ = .ok c ∧ e₂.build calls₂ = .ok d ∧
      (c.same d = true ↔ e₁.anchor = e₂.anchor ∧ List.Forall₂ Step.Alike calls₁ calls₂) ∧
      (c.same d = true → ∀ r, c.test r = d.test r) := by
  refine ⟨_, _, build_eq e₁ calls₁, build_eq e₂ calls₂, same_foldl_extend _ _ _ _, ?_⟩
  intro hsame r
  rw [Chain.eq_of_same hsame]

/-- Nothing starts with one of no literals and nothing ends with one of them: the two filters are
the same. -/
theorem same_build_withoutLiterals :
    ∃ c d, (EntryPoint.selector .names).build [⟨⟨.starts, false⟩, []⟩] = .ok c ∧
      (EntryPoint.attribute .nameIgnoringCase).build [⟨⟨.ends, false⟩, []⟩] = .ok d ∧
      c.same d = true ∧ ∀ r, c.test r = d.test r := by
  obtain ⟨c, d, hc, hd, hiff, htest⟩ := same_build_iff (.selector .names)
    (.attribute .nameIgnoringCase) [⟨⟨.starts, false⟩, []⟩] [⟨⟨.ends, false⟩, []⟩]
  have halike : Step.Alike ⟨⟨.starts, false⟩, []⟩ ⟨⟨.ends, false⟩, []⟩ :=
    ⟨rfl, rfl, fun hne => absurd rfl hne⟩
  have hsame := hiff.mpr ⟨rfl, .cons halike .nil⟩
  exact ⟨c, d, hc, hd, hsame, htest hsame⟩

end Winnow
