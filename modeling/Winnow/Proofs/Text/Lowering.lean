/-
Winnow/Proofs/Text/Lowering.lean

The lower case of a part of a text.

A text is put into lower case as a whole, and what becomes of a capital sigma
depends on the characters around it.  So a part of a text need not become what
it becomes alone.  `lowerAmid before after` is the lower case of a part between
two texts, the first of them read backwards as in `lowerFrom`; the lower case of
a whole is made of those of its parts, each between the others
(`lowerAmid_append`).

Every character becomes as many characters as anywhere else
(`length_lowerAmid`), and only capital sigmas look around.  Main result: a part
becomes the same between two pairs of texts exactly when each of its capital
sigmas ends a word between the one pair just if it does between the other
(`lowerAmid_eq_iff`).
-/
import Winnow.Text.Case

namespace Winnow.Text

variable {before after before' after' cs : List Char}

/-! ### Parts between texts -/

/-- The lower case of a text between two others, the first given backwards. -/
def lowerAmid (before after : List Char) : List Char → List Char
  | [] => []
  | c :: rest => lowerWithin before c (rest ++ after) ++ lowerAmid (c :: before) after rest

theorem lowerFrom_eq_lowerAmid (before cs : List Char) :
    lowerFrom before cs = lowerAmid before [] cs := by
  induction cs generalizing before with
  | nil => rfl
  | cons c rest ih => rw [lowerFrom, lowerAmid, List.append_nil, ih]

theorem toList_lower (s : String) : (lower s).toList = lowerAmid [] [] s.toList := by
  rw [lower, String.toList_ofList, lowerFrom_eq_lowerAmid]

/-- Two parts one behind the other: the second stands behind the first, and the
first in front of the second. -/
theorem lowerAmid_append (before after front back : List Char) :
    lowerAmid before after (front ++ back)
      = lowerAmid before (back ++ after) front
        ++ lowerAmid (front.reverse ++ before) after back := by
  induction front generalizing before with
  | nil => rfl
  | cons c rest ih =>
    rw [List.cons_append, lowerAmid, lowerAmid, ih, List.append_assoc, List.append_assoc,
      List.reverse_cons, List.append_assoc, List.singleton_append]

/-! ### What the neighbours change -/

theorem length_lowerWithin (c : Char) :
    (lowerWithin before c after).length = (lowerWithin before' c after').length := by
  unfold lowerWithin
  split
  · rfl
  · split <;> rfl

/-- The neighbours of a text never change how long its lower case is. -/
theorem length_lowerAmid :
    (lowerAmid before after cs).length = (lowerAmid before' after' cs).length := by
  induction cs generalizing before before' with
  | nil => rfl
  | cons c rest ih =>
    rw [lowerAmid, lowerAmid, List.length_append, List.length_append, length_lowerWithin, ih]

theorem lowerWithin_eq_iff {c : Char} :
    lowerWithin before c after = lowerWithin before' c after'
      ↔ (c = capitalSigma → endsWord before after = endsWord before' after') := by
  unfold lowerWithin
  by_cases hc : c = capitalSigma
  · simp only [hc, if_true, forall_const]
    cases endsWord before after <;> cases endsWord before' after' <;> decide
  · simp only [hc, if_false, false_implies]

/-- **Only capital sigmas look around.**  The lower cases of a text between two
pairs of texts are the same exactly when every capital sigma in it ends a word
between the one pair just if it does between the other. -/
theorem lowerAmid_eq_iff :
    lowerAmid before after cs = lowerAmid before' after' cs
      ↔ ∀ left right, cs = left ++ capitalSigma :: right →
        endsWord (left.reverse ++ before) (right ++ after)
          = endsWord (left.reverse ++ before') (right ++ after') := by
  induction cs generalizing before before' with
  | nil =>
    refine iff_of_true rfl fun left right h => ?_
    cases left <;> cases h
  | cons c rest ih =>
    -- the first character takes as much room on both sides, so it can be split off
    have hsplit : lowerAmid before after (c :: rest) = lowerAmid before' after' (c :: rest)
        ↔ lowerWithin before c (rest ++ after) = lowerWithin before' c (rest ++ after')
          ∧ lowerAmid (c :: before) after rest = lowerAmid (c :: before') after' rest := by
      rw [lowerAmid, lowerAmid]
      constructor
      · exact fun h => List.append_inj h (length_lowerWithin c)
      · rintro ⟨hfirst, hrest⟩
        rw [hfirst, hrest]
    rw [hsplit, lowerWithin_eq_iff, ih]
    constructor
    · rintro ⟨hfirst, hrest⟩ left right h
      cases left with
      | nil =>
        obtain ⟨rfl, rfl⟩ := List.cons.inj h
        exact hfirst rfl
      | cons d left =>
        obtain ⟨rfl, hcons⟩ := List.cons.inj h
        have := hrest left right hcons
        simpa using this
    · intro h
      refine ⟨fun hc => h [] rest (by rw [hc]; rfl), fun left right hcons => ?_⟩
      have := h (c :: left) right (by rw [hcons]; rfl)
      simpa using this

/-! ### Single characters -/

/-- What holds of the first code points holds of the ASCII characters. -/
theorem of_ascii {P : Char → Prop} {c : Char} (h : ∀ n < 0x80, P (Char.ofNat n))
    (hc : c.toNat < 0x80) : P c := by
  have hp := h c.toNat hc
  rwa [Char.ofNat_toNat] at hp

theorem CaseRun.covers_iff {r : CaseRun} {n : Nat} :
    r.covers n = true ↔ r.first ≤ n ∧ n ≤ r.last ∧ (n - r.first) % r.step = 0 := by
  rw [covers, Bool.and_eq_true, Bool.and_eq_true, decide_eq_true_iff, decide_eq_true_iff,
    beq_iff_eq, and_assoc]

/-! ### Dots -/

/-- No letter beyond ASCII has a lower case as low as the dot. -/
theorem lt_of_image?_lowerRuns {m n : Nat} (h : CaseRun.image? lowerRuns m = some n) :
    '.'.toNat < n := by
  obtain ⟨r, hr, rfl⟩ := Option.map_eq_some_iff.mp h
  have hall : ∀ r ∈ lowerRuns, ('.'.toNat : Int) < r.first + r.shift := by decide +kernel
  have hlow := hall r (List.mem_of_find?_eq_some hr)
  have hcovers : r.covers m = true := List.find?_some (p := (CaseRun.covers · m)) hr
  have hfirst := (CaseRun.covers_iff.mp hcovers).1
  omega

theorem eq_dot_of_lowerChar {c : Char} (h : lowerChar c = '.') : c = '.' := by
  unfold lowerChar at h
  split at h
  · exact of_ascii (P := fun c => c.toLower = '.' → c = '.') (by decide) ‹_› h
  · cases himage : CaseRun.image? lowerRuns c.toNat with
    | none =>
      rw [himage] at h
      exact h
    | some n =>
      rw [himage] at h
      have hlow := lt_of_image?_lowerRuns himage
      have hdot : Char.ofNat n = '.' := h
      unfold Char.ofNat at hdot
      by_cases hvalid : n.isValidChar
      · rw [dif_pos hvalid] at hdot
        have hcode : n = '.'.toNat := congrArg Char.toNat hdot
        omega
      · rw [dif_neg hvalid] at hdot
        cases hdot

theorem eq_dot_of_mem_lowerWithin {c : Char} (h : '.' ∈ lowerWithin before c after) : c = '.' := by
  unfold lowerWithin at h
  split at h
  · split at h <;> cases List.mem_singleton.mp h
  · split at h
    · cases h with
      | tail _ h => cases List.mem_singleton.mp h
    · exact eq_dot_of_lowerChar (List.mem_singleton.mp h).symm

theorem dot_mem_of_mem_lowerAmid (h : '.' ∈ lowerAmid before after cs) : '.' ∈ cs := by
  induction cs generalizing before with
  | nil => cases h
  | cons c rest ih =>
    rw [lowerAmid, List.mem_append] at h
    rcases h with h | h
    · rw [eq_dot_of_mem_lowerWithin h]
      exact List.mem_cons_self
    · exact List.mem_cons_of_mem c (ih h)

/-- Lowering makes no dots. -/
theorem dot_mem_of_mem_lower {s : String} (h : '.' ∈ (lower s).toList) : '.' ∈ s.toList := by
  rw [toList_lower] at h
  exact dot_mem_of_mem_lowerAmid h

end Winnow.Text
