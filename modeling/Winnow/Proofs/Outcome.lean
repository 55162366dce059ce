/-
Winnow/Proofs/Outcome.lean

Steps that may fail, one after another: when both succeed, and which of them is
to blame when they do not; and steps that fail or succeed alike (`OutcomesAlike`).
-/

namespace Winnow

variable {ε α β : Type} {x : Except ε α} {f : α → Except ε β}

theorem except_bind_eq_ok_iff {b : β} :
    (x >>= f) = .ok b ↔ ∃ a, x = .ok a ∧ f a = .ok b := by
  cases x <;> simp [bind, Except.bind]

theorem except_bind_eq_error_iff {e : ε} :
    (x >>= f) = .error e ↔ x = .error e ∨ ∃ a, x = .ok a ∧ f a = .error e := by
  cases x <;> simp [bind, Except.bind]

/-- Two outcomes are the same fault, or results that are related. -/
inductive OutcomesAlike {ε α β : Type} (R : α → β → Prop) : Except ε α → Except ε β → Prop
  | error (e : ε) : OutcomesAlike R (.error e) (.error e)
  | ok {a : α} {b : β} : R a b → OutcomesAlike R (.ok a) (.ok b)

theorem OutcomesAlike.bind {γ δ : Type} {R : α → γ → Prop} {S : β → δ → Prop} {y : Except ε γ}
    {g : γ → Except ε δ} (h : OutcomesAlike R x y)
    (hfg : ∀ a c, R a c → OutcomesAlike S (f a) (g c)) :
    OutcomesAlike S (x >>= f) (y >>= g) := by
  cases h with
  | error e => exact .error e
  | ok hac => exact hfg _ _ hac

/-- A step that is taken once is taken alike. -/
theorem OutcomesAlike.bind_same {γ : Type} {S : β → γ → Prop} {g : α → Except ε γ}
    (x : Except ε α) (hfg : ∀ a, OutcomesAlike S (f a) (g a)) :
    OutcomesAlike S (x >>= f) (x >>= g) := by
  cases x with
  | error e => exact .error e
  | ok a => exact hfg a

end Winnow
