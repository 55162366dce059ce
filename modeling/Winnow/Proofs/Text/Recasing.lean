/-
Winnow/Proofs/Text/Recasing.lean

What the lower case of a text does not depend on.

Two texts are recasings of each other when they differ in nothing but the case of
ASCII letters.  Such letters are looked at by their neighbours as well: what becomes
of a capital sigma depends on whether the characters around it are cased.  But the
two cases of an ASCII letter are both cased and neither is passed over, so that the
characters of two recasings meet the same around them (`endsWord_map_toLower`).
First result: recasings have the same lower case (`Recased.lower_eq`).

A character is settled when lowering leaves it as it is, wherever it stands.  All
that lowering makes is settled, the two characters of the dotted capital I and both
forms of sigma included; for the letters beyond ASCII this is a property of the
table, where no letter that some letter is moved to is moved on
(`not_covers_of_image?`).  Second result: lowering a text again changes nothing
(`lower_lower`).

A word of small ASCII letters is the lower case of its recasings.  It is that of no
other text unless it has the letter `k`, which is the lower case of the Kelvin sign as
well (`lower_eq_iff_recased`).
-/
import Winnow.Proofs.Text.Lowering

namespace Winnow.Text

variable {c : Char} {before after cs : List Char} {s t : String}

/-! ### The case of ASCII letters -/

/-- The texts differ in nothing but the case of ASCII letters: `Char.toLower` moves no
other character than the ASCII capitals. -/
def Recased (s t : String) : Prop := s.toList.map Char.toLower = t.toList.map Char.toLower

instance (s t : String) : Decidable (Recased s t) :=
  inferInstanceAs (Decidable (s.toList.map Char.toLower = t.toList.map Char.toLower))

theorem toLower_of_not_ascii (hc : ¬ c.toNat < 0x80) : c.toLower = c := by
  unfold Char.toLower
  refine dif_neg fun h => hc ?_
  have hz : c.val ≤ 'Z'.val := h.2
  rw [UInt32.le_iff_toNat_le] at hz
  exact Nat.lt_of_le_of_lt hz (by decide)

/-- What is the same of every ASCII letter in both cases is the same of any character and
of this character in ASCII lower case. -/
theorem congr_toLower {α : Type} {f : Char → α}
    (h : ∀ n < 0x80, f (Char.ofNat n).toLower = f (Char.ofNat n)) (c : Char) :
    f c.toLower = f c := by
  by_cases hc : c.toNat < 0x80
  · exact of_ascii (P := fun c => f c.toLower = f c) h hc
  · rw [toLower_of_not_ascii hc]

theorem isCaseIgnorable_toLower (c : Char) : isCaseIgnorable c.toLower = isCaseIgnorable c :=
  congr_toLower (by decide) c

theorem isCased_toLower (c : Char) : isCased c.toLower = isCased c :=
  congr_toLower (by decide) c

theorem lowerChar_toLower (c : Char) : lowerChar c.toLower = lowerChar c :=
  congr_toLower (by decide) c

theorem meetsCased_map_toLower (cs : List Char) :
    meetsCased (cs.map Char.toLower) = meetsCased cs := by
  unfold meetsCased
  rw [List.dropWhile_map, List.head?_map, Option.map_map]
  have hskip : isCaseIgnorable ∘ Char.toLower = isCaseIgnorable := funext isCaseIgnorable_toLower
  have hcased : isCased ∘ Char.toLower = isCased := funext isCased_toLower
  rw [hskip, hcased]

theorem endsWord_map_toLower (before after : List Char) :
    endsWord (before.map Char.toLower) (after.map Char.toLower) = endsWord before after := by
  rw [endsWord, endsWord, meetsCased_map_toLower, meetsCased_map_toLower]

theorem lowerWithin_map_toLower (before after : List Char) (c : Char) :
    lowerWithin (before.map Char.toLower) c.toLower (after.map Char.toLower)
      = lowerWithin before c after := by
  have hsigma : (c.toLower == capitalSigma) = (c == capitalSigma) :=
    congr_toLower (f := (· == capitalSigma)) (by decide) c
  have hdotted : (c.toLower == capitalDottedI) = (c == capitalDottedI) :=
    congr_toLower (f := (· == capitalDottedI)) (by decide) c
  rw [Bool.eq_iff_iff, beq_iff_eq, beq_iff_eq] at hsigma hdotted
  simp only [lowerWithin, hsigma, hdotted, endsWord_map_toLower, lowerChar_toLower]

theorem lowerFrom_map_toLower (before cs : List Char) :
    lowerFrom (before.map Char.toLower) (cs.map Char.toLower) = lowerFrom before cs := by
  induction cs generalizing before with
  | nil => rfl
  | cons c rest ih =>
    rw [List.map_cons, lowerFrom, lowerFrom, lowerWithin_map_toLower, ← List.map_cons, ih]

/-- **The case of ASCII letters makes no difference** to the lower case of a text,
not even next to a capital sigma. -/
theorem Recased.lower_eq (h : Recased s t) : lower s = lower t := by
  have hfrom : lowerFrom [] s.toList = lowerFrom [] t.toList := by
    calc lowerFrom [] s.toList
        = lowerFrom [] (s.toList.map Char.toLower) := (lowerFrom_map_toLower [] _).symm
      _ = lowerFrom [] (t.toList.map Char.toLower) := by rw [h]
      _ = lowerFrom [] t.toList := lowerFrom_map_toLower [] _
  rw [lower, lower, hfrom]

/-! ### Lowering twice -/

/-- Lowering leaves the character as it is, wherever it stands. -/
structure Settled (c : Char) : Prop where
  notDotted : c ≠ capitalDottedI
  unmoved : lowerChar c = c

theorem Settled.notSigma (h : Settled c) : c ≠ capitalSigma := by
  rintro rfl
  exact absurd h.unmoved (by decide)

theorem lowerWithin_of_settled (h : Settled c) : lowerWithin before c after = [c] := by
  rw [lowerWithin, if_neg h.notSigma, if_neg h.notDotted, h.unmoved]

theorem lowerFrom_of_settled (h : ∀ c ∈ cs, Settled c) : lowerFrom before cs = cs := by
  induction cs generalizing before with
  | nil => rfl
  | cons c rest ih =>
    obtain ⟨hc, hrest⟩ := List.forall_mem_cons.mp h
    rw [lowerFrom, lowerWithin_of_settled hc, ih hrest, List.singleton_append]

/-- The code point that a run moves another to. -/
def CaseRun.image (r : CaseRun) (n : Nat) : Nat := ((n : Int) + r.shift).toNat

/-- The run holds none of the code points from `first` to `last`; where these are
every other one only, it may hold those between them. -/
def CaseRun.avoids (q : CaseRun) (first last : Nat) (alternate : Bool) : Bool :=
  Nat.blt last q.first || Nat.blt q.last first
    || (alternate && Nat.beq q.step 2 && Nat.beq ((first + q.first) % 2) 1)

/-- The second run holds nothing that the first leads to. -/
def CaseRun.leaves (r q : CaseRun) : Bool :=
  q.avoids (r.image r.first) (r.image r.last)
    (r.first == r.last || (r.step == 2 && r.shift == 1))

theorem CaseRun.not_covers_of_leaves {r q : CaseRun} {n : Nat} (h : r.leaves q = true)
    (hn : r.covers n = true) : ¬ q.covers (r.image n) = true := by
  rw [covers_iff] at hn ⊢
  obtain ⟨hfirst, hlast, hstep⟩ := hn
  rintro ⟨hqfirst, hqlast, hqstep⟩
  -- a run keeps the order of what it moves
  have hlow : r.image r.first ≤ r.image n := by unfold image; omega
  have hhigh : r.image n ≤ r.image r.last := by unfold image; omega
  simp only [leaves, avoids, Bool.or_eq_true, Bool.and_eq_true, Nat.blt_eq, Nat.beq_eq,
    beq_iff_eq] at h
  rcases h with (hbelow | habove) | ⟨⟨hone | ⟨htwo, hshift⟩, hqtwo⟩, hodd⟩
  · omega
  · omega
  · obtain rfl : n = r.first := by omega
    rw [hqtwo] at hqstep
    omega
  · rw [htwo] at hstep
    rw [hqtwo] at hqstep
    have hfirstImage : r.image r.first = r.first + 1 := by unfold image; omega
    have hnImage : r.image n = n + 1 := by unfold image; omega
    omega

/-- The code points that lowering moves: the ASCII capitals, the dotted capital I,
and those of the table. -/
def movedRuns : List CaseRun :=
  ⟨0x41, 0x5A, 1, 32⟩ :: ⟨0x130, 0x130, 1, -199⟩ :: lowerRuns

theorem leaves_lowerRuns : ∀ r ∈ lowerRuns, ∀ q ∈ movedRuns, r.leaves q = true := by
  have hall : (lowerRuns.all fun r => movedRuns.all r.leaves) = true := by decide +kernel
  simpa only [List.all_eq_true] using hall

/-- **No letter is moved on** from where another letter is moved to. -/
theorem not_covers_of_image? {m n : Nat} (h : CaseRun.image? lowerRuns m = some n) :
    ∀ q ∈ movedRuns, ¬ q.covers n = true := by
  obtain ⟨r, hr, rfl⟩ := Option.map_eq_some_iff.mp h
  intro q hq
  exact CaseRun.not_covers_of_leaves (leaves_lowerRuns r (List.mem_of_find?_eq_some hr) q hq)
    (List.find?_some (p := (CaseRun.covers · m)) hr)

theorem settled_of_not_covers (h : ∀ q ∈ movedRuns, ¬ q.covers c.toNat = true) : Settled c where
  notDotted := by
    rintro rfl
    exact h ⟨0x130, 0x130, 1, -199⟩ (by simp [movedRuns]) (by decide)
  unmoved := by
    unfold lowerChar
    by_cases hc : c.toNat < 0x80
    · rw [if_pos hc]
      have hcapitals := h ⟨0x41, 0x5A, 1, 32⟩ List.mem_cons_self
      exact of_ascii (P := fun c => ¬ CaseRun.covers ⟨0x41, 0x5A, 1, 32⟩ c.toNat = true →
        c.toLower = c) (by decide) hc hcapitals
    · have hnone : CaseRun.image? lowerRuns c.toNat = none := by
        rw [CaseRun.image?, Option.map_eq_none_iff, List.find?_eq_none]
        exact fun q hq => h q (List.mem_cons_of_mem _ (List.mem_cons_of_mem _ hq))
      rw [if_neg hc, hnone, Option.map_none, Option.getD_none]

theorem settled_ofNat_of_image? {m n : Nat} (h : CaseRun.image? lowerRuns m = some n) :
    Settled (Char.ofNat n) := by
  unfold Char.ofNat
  by_cases hvalid : n.isValidChar
  · rw [dif_pos hvalid]
    exact settled_of_not_covers (not_covers_of_image? h)
  · rw [dif_neg hvalid]
    exact ⟨by decide, by decide⟩

theorem settled_lowerChar (hdotted : c ≠ capitalDottedI) : Settled (lowerChar c) := by
  by_cases hc : c.toNat < 0x80
  · constructor
    · exact of_ascii (P := fun c => lowerChar c ≠ capitalDottedI) (by decide) hc
    · exact of_ascii (P := fun c => lowerChar (lowerChar c) = lowerChar c) (by decide) hc
  · cases himage : CaseRun.image? lowerRuns c.toNat with
    | some n =>
      rw [lowerChar, if_neg hc, himage]
      exact settled_ofNat_of_image? himage
    | none =>
      have hunmoved : lowerChar c = c := by rw [lowerChar, if_neg hc, himage]; rfl
      rw [hunmoved]
      exact ⟨hdotted, hunmoved⟩

theorem settled_of_mem_lowerWithin {d : Char} (h : d ∈ lowerWithin before c after) :
    Settled d := by
  unfold lowerWithin at h
  split at h
  · split at h <;> cases List.mem_singleton.mp h <;> exact ⟨by decide, by decide⟩
  · split at h
    · simp only [List.mem_cons, List.not_mem_nil, or_false] at h
      rcases h with rfl | rfl <;> exact ⟨by decide, by decide⟩
    · rename_i hdotted
      rw [List.mem_singleton.mp h]
      exact settled_lowerChar hdotted

theorem settled_of_mem_lowerFrom {d : Char} (h : d ∈ lowerFrom before cs) : Settled d := by
  induction cs generalizing before with
  | nil => cases h
  | cons c rest ih =>
    rw [lowerFrom, List.mem_append] at h
    rcases h with h | h
    · exact settled_of_mem_lowerWithin h
    · exact ih h

/-- **Lowering a text again changes nothing.** -/
theorem lower_lower (s : String) : lower (lower s) = lower s := by
  have hsettled : ∀ d ∈ lowerFrom [] s.toList, Settled d := fun d => settled_of_mem_lowerFrom
  rw [lower, lower, String.toList_ofList, lowerFrom_of_settled hsettled]

/-! ### Words -/

/-- A small ASCII letter that is the lower case of no character beyond ASCII. -/
def IsPlain (c : Char) : Prop := c.isLower = true ∧ c ≠ 'k'

instance (c : Char) : Decidable (IsPlain c) :=
  inferInstanceAs (Decidable (c.isLower = true ∧ c ≠ 'k'))

theorem lt_of_isLower (h : c.isLower = true) : c.toNat < 0x80 := by
  have hlower : (decide ('a'.val ≤ c.val) && decide (c.val ≤ 'z'.val)) = true := h
  obtain ⟨-, hle⟩ := Bool.and_eq_true_iff.mp hlower
  exact Nat.lt_of_le_of_lt (UInt32.le_iff_toNat_le.mp (of_decide_eq_true hle)) (by decide)

theorem IsPlain.lt (h : IsPlain c) : c.toNat < 0x80 := lt_of_isLower h.1

theorem IsPlain.toLower (h : IsPlain c) : c.toLower = c :=
  of_ascii (P := fun c => IsPlain c → c.toLower = c) (by decide) h.lt h

theorem IsPlain.settled (h : IsPlain c) : Settled c := by
  constructor
  · exact of_ascii (P := fun c => IsPlain c → c ≠ capitalDottedI) (by decide) h.lt h
  · rw [lowerChar, if_pos h.lt, h.toLower]

/-- The lower case of a letter beyond ASCII is beyond ASCII, that of the Kelvin sign
excepted. -/
theorem le_or_eq_of_image?_lowerRuns {m n : Nat} (h : CaseRun.image? lowerRuns m = some n) :
    0x80 ≤ n ∨ n = 'k'.toNat := by
  obtain ⟨r, hr, rfl⟩ := Option.map_eq_some_iff.mp h
  have hall : ∀ r ∈ lowerRuns, (0x80 : Int) ≤ r.first + r.shift ∨
      r.first = r.last ∧ (r.first : Int) + r.shift = 'k'.toNat := by decide +kernel
  have himage := hall r (List.mem_of_find?_eq_some hr)
  have hcovers : r.covers m = true := List.find?_some (p := (CaseRun.covers · m)) hr
  obtain ⟨hfirst, hlast, -⟩ := CaseRun.covers_iff.mp hcovers
  omega

theorem lt_of_isPlain_lowerChar (h : IsPlain (lowerChar c)) : c.toNat < 0x80 := by
  refine Decidable.byContradiction fun hc => ?_
  rw [lowerChar, if_neg hc] at h
  cases himage : CaseRun.image? lowerRuns c.toNat with
  | none =>
    rw [himage] at h
    exact hc h.lt
  | some n =>
    rw [himage] at h
    have hn : IsPlain (Char.ofNat n) := h
    rcases le_or_eq_of_image?_lowerRuns himage with hbeyond | rfl
    · by_cases hvalid : n.isValidChar
      · have hlt := hn.lt
        rw [Char.ofNat, dif_pos hvalid] at hlt
        have hcode : (Char.ofNatAux n hvalid).toNat = n := rfl
        omega
      · rw [Char.ofNat, dif_neg hvalid] at hn
        exact absurd hn (by decide)
    · exact absurd hn (by decide)

theorem lowerWithin_of_isPlain (h : ∀ d ∈ lowerWithin before c after, IsPlain d) :
    lowerWithin before c after = [c.toLower] := by
  unfold lowerWithin at h ⊢
  split at h
  · split at h <;> exact absurd (List.forall_mem_singleton.mp h) (by decide)
  · split at h
    · obtain ⟨-, hdot⟩ := List.forall_mem_cons.mp h
      exact absurd (List.forall_mem_singleton.mp hdot) (by decide)
    · rename_i hsigma hdotted
      rw [if_neg hsigma, if_neg hdotted, lowerChar,
        if_pos (lt_of_isPlain_lowerChar (List.forall_mem_singleton.mp h))]

theorem lowerFrom_of_isPlain (h : ∀ d ∈ lowerFrom before cs, IsPlain d) :
    lowerFrom before cs = cs.map Char.toLower := by
  induction cs generalizing before with
  | nil => rfl
  | cons c rest ih =>
    rw [lowerFrom, List.forall_mem_append] at h
    rw [lowerFrom, lowerWithin_of_isPlain h.1, ih h.2, List.map_cons, List.singleton_append]

theorem map_toLower_of_isPlain (h : ∀ c ∈ cs, IsPlain c) : cs.map Char.toLower = cs :=
  (List.map_congr_left fun c hc => (h c hc).toLower).trans (List.map_id cs)

/-- **A word of plain letters** is the lower case of its recasings alone. -/
theorem lower_eq_iff_recased (ht : ∀ c ∈ t.toList, IsPlain c) : lower s = t ↔ Recased s t := by
  have hsettled : lower t = t := by
    rw [lower, lowerFrom_of_settled fun c hc => (ht c hc).settled, String.ofList_toList]
  refine ⟨fun h => ?_, fun h => h.lower_eq.trans hsettled⟩
  have hfrom : lowerFrom [] s.toList = t.toList := by rw [← h, lower, String.toList_ofList]
  rw [Recased, map_toLower_of_isPlain ht, ← hfrom]
  exact (lowerFrom_of_isPlain (hfrom ▸ ht)).symm

/-- The text is one of the words in some case of its ASCII letters. -/
def IsOneOf (words : List String) (cs : List Char) : Prop :=
  String.ofList (cs.map Char.toLower) ∈ words

instance (words : List String) (cs : List Char) : Decidable (IsOneOf words cs) :=
  inferInstanceAs (Decidable (String.ofList (cs.map Char.toLower) ∈ words))

theorem lower_mem_iff_isOneOf {words : List String} (h : ∀ w ∈ words, ∀ c ∈ w.toList, IsPlain c) :
    lower s ∈ words ↔ IsOneOf words s.toList := by
  constructor
  · intro hs
    have hrecased := (lower_eq_iff_recased (h _ hs)).mp rfl
    rw [Recased, map_toLower_of_isPlain (h _ hs)] at hrecased
    rwa [IsOneOf, hrecased, String.ofList_toList]
  · intro hs
    have hwords := h _ hs
    have hrecased : Recased s (String.ofList (s.toList.map Char.toLower)) := by
      rw [Recased, map_toLower_of_isPlain hwords, String.toList_ofList]
    rwa [(lower_eq_iff_recased hwords).mpr hrecased]

end Winnow.Text
