/-
Winnow/Proofs/Definition/FilterNames.lean

Which values are names of filters.

The form of a name is an ASCII letter with ASCII letters, digits, underscores, dots
and hyphens behind it (`IsName`).  Reading a name looks at the form first and then at
the length, and the two disagree about a line feed at the end: the form does not count
it and the length does.  So what is accepted are the names, and the names with a line
feed behind them that are short enough together with it (`filterName_iff`); it is
the text as it stands that is accepted, line feed and all.

What stands before a dot in a name is a name again (`filterName_front`).
-/
import Winnow.Proofs.Definition.Reading

namespace Winnow

/-! ### The form of a name -/

/-- An ASCII letter. -/
def IsLetter (c : Char) : Prop := ('a' ≤ c ∧ c ≤ 'z') ∨ ('A' ≤ c ∧ c ≤ 'Z')

/-- What may stand in a name behind its first letter. -/
def IsNamePart (c : Char) : Prop :=
  IsLetter c ∨ ('0' ≤ c ∧ c ≤ '9') ∨ c = '_' ∨ c = '.' ∨ c = '-'

/-- The form of the name of a filter. -/
def IsName (cs : List Char) : Prop :=
  ∃ c rest, cs = c :: rest ∧ IsLetter c ∧ ∀ d ∈ rest, IsNamePart d

theorem isLetter_iff {c : Char} : IsLetter c ↔ c.isAlpha = true := by
  have hupper : c.isUpper = true ↔ 'A' ≤ c ∧ c ≤ 'Z' := decide_eq_true_iff
  have hlower : c.isLower = true ↔ 'a' ≤ c ∧ c ≤ 'z' :=
    Bool.and_eq_true_iff.trans (and_congr decide_eq_true_iff decide_eq_true_iff)
  have hletter : c.isAlpha = true ↔ c.isUpper = true ∨ c.isLower = true := Bool.or_eq_true_iff
  rw [hletter, hupper, hlower]
  exact or_comm

theorem isNamePart_iff {c : Char} : IsNamePart c ↔ isNameChar c = true := by
  have hdigit : ('0' ≤ c ∧ c ≤ '9') ↔ c.isDigit = true := by
    simp [Char.isDigit, Char.le_def]
  unfold IsNamePart isNameChar
  rw [isLetter_iff, hdigit]
  simp [Char.isAlphanum, or_assoc]

theorem isName_cons_iff {c : Char} {rest : List Char} :
    IsName (c :: rest) ↔ c.isAlpha = true ∧ rest.all isNameChar = true := by
  rw [List.all_eq_true, ← isLetter_iff]
  constructor
  · rintro ⟨d, tail, hcs, hd, htail⟩
    cases hcs
    exact ⟨hd, fun e he => isNamePart_iff.mp (htail e he)⟩
  · rintro ⟨hc, hrest⟩
    exact ⟨c, rest, rfl, hc, fun d hd => isNamePart_iff.mpr (hrest d hd)⟩

theorem IsName.not_lineFeed {cs : List Char} (h : IsName cs) : cs.getLast? ≠ some '\n' := by
  obtain ⟨c, rest, rfl, hc, hrest⟩ := h
  intro hlast
  rcases List.mem_cons.mp (List.mem_of_getLast? hlast) with rfl | hmem
  · exact absurd (isLetter_iff.mp hc) (by decide)
  · exact absurd (isNamePart_iff.mp (hrest _ hmem)) (by decide)

theorem not_isName_nil : ¬IsName [] := by
  rintro ⟨c, rest, h, -⟩
  cases h

theorem isFilterName_lineFeed {body : List Char} :
    isFilterName (body ++ ['\n']) = true ↔ IsName body := by
  unfold isFilterName
  rw [if_pos List.getLast?_concat, List.dropLast_concat]
  cases body with
  | nil => exact iff_of_false Bool.false_ne_true not_isName_nil
  | cons c rest => rw [isName_cons_iff, Bool.and_eq_true]

theorem isFilterName_of_ne {cs : List Char} (hlast : cs.getLast? ≠ some '\n') :
    isFilterName cs = true ↔ IsName cs := by
  unfold isFilterName
  rw [if_neg hlast]
  cases cs with
  | nil => exact iff_of_false Bool.false_ne_true not_isName_nil
  | cons c rest => rw [isName_cons_iff, Bool.and_eq_true]

/-- One line feed behind a name is not counted. -/
theorem isFilterName_iff {cs : List Char} :
    isFilterName cs = true ↔ IsName cs ∨ ∃ body, IsName body ∧ cs = body ++ ['\n'] := by
  by_cases hlast : cs.getLast? = some '\n'
  · obtain ⟨body, rfl⟩ := List.getLast?_eq_some_iff.mp hlast
    rw [isFilterName_lineFeed]
    refine ⟨fun h => .inr ⟨body, h, rfl⟩, ?_⟩
    rintro (h | ⟨other, h, heq⟩)
    · exact absurd hlast h.not_lineFeed
    · rw [List.append_cancel_right heq]
      exact h
  · rw [isFilterName_of_ne hlast]
    refine ⟨.inl, ?_⟩
    rintro (h | ⟨body, -, rfl⟩)
    · exact h
    · exact absurd List.getLast?_concat hlast

/-- What stands before a dot in a name has the form of a name. -/
theorem isFilterName_front {front back : List Char}
    (h : isFilterName (front ++ '.' :: back) = true) : isFilterName front = true := by
  -- all that is before the dot belongs to the name itself, also where a line feed ends the text
  have hname : ∃ after, IsName (front ++ '.' :: after) := by
    rcases isFilterName_iff.mp h with hname | ⟨body, hname, heq⟩
    · exact ⟨back, hname⟩
    · have hback : back ≠ [] := by
        rintro rfl
        have hlast := congrArg List.getLast? heq
        simp at hlast
      rw [← List.dropLast_append_getLast hback, ← List.cons_append, ← List.append_assoc] at heq
      exact ⟨back.dropLast, (List.append_inj' heq rfl).1 ▸ hname⟩
  obtain ⟨after, hname⟩ := hname
  cases front with
  | nil => exact absurd (isName_cons_iff.mp hname).1 (by decide)
  | cons c front =>
    obtain ⟨hc, hrest⟩ := isName_cons_iff.mp hname
    have hfront : front.all isNameChar = true :=
      List.all_eq_true.mpr fun d hd => List.all_eq_true.mp hrest d (List.mem_append_left _ hd)
    exact isFilterName_iff.mpr (.inl (isName_cons_iff.mpr ⟨hc, hfront⟩))

/-! ### Reading a name -/

theorem filterName_eq_ok_iff {v : Value} {name : String} : filterName v = .ok name ↔
    v = .text name ∧ isFilterName name.toList = true ∧ name.length ≤ nameLimit := by
  constructor
  · intro h
    unfold filterName at h
    split at h
    · cases h
    · split at h
      · cases h
      · rename_i s hs
        split at h
        · cases h
        · split at h
          · cases h
          · cases h
            exact ⟨value_text?_eq_some_iff.mp hs, by simp_all, by omega⟩
  · rintro ⟨rfl, hform, hlength⟩
    have hne : (Value.text name).isEmpty = false := by
      refine Bool.eq_false_iff.mpr fun hempty => ?_
      rw [String.isEmpty_iff.mp hempty] at hform
      cases hform
    unfold filterName
    rw [hne]
    dsimp only [Value.text?]
    rw [hform]
    exact if_neg (Nat.not_lt.mpr hlength)

/-- The name of a filter is a text that stays as it is. -/
theorem text_of_filterName {v : Value} {name : String} (h : filterName v = .ok name) :
    v = .text name := (filterName_eq_ok_iff.mp h).1

/-- What stands before a dot in a name is a name. -/
theorem filterName_front {front back : String}
    (h : filterName (.text (front ++ "." ++ back)) = .ok (front ++ "." ++ back)) :
    filterName (.text front) = .ok front := by
  obtain ⟨-, hform, hlength⟩ := filterName_eq_ok_iff.mp h
  rw [String.toList_append, String.toList_append, List.append_assoc] at hform
  refine filterName_eq_ok_iff.mpr ⟨rfl, isFilterName_front hform, ?_⟩
  rw [String.length_append, String.length_append] at hlength
  omega

theorem isReported_of_filterName {v : Value} {fault : DefinitionFault}
    (h : filterName v = .error fault) : fault.IsReported := by
  unfold filterName at h
  split at h
  · cases h
    rfl
  · split at h
    · cases h
      rfl
    · split at h
      · cases h
        rfl
      · split at h
        · cases h
          rfl
        · cases h

/-- **The names of filters**, and they are all that is accepted but for a line feed: a text is
accepted if it has the form of a name and no more than `nameLimit` characters, and also if it is
such a name with one line feed behind it that counts as a character.  Everything else is
refused and reported as bad input. -/
theorem filterName_iff (v : Value) :
    (∀ name, filterName v = .ok name ↔ v = .text name ∧ name.length ≤ nameLimit ∧
      (IsName name.toList ∨ ∃ body, IsName body ∧ name.toList = body ++ ['\n'])) ∧
    ((∃ name, filterName v = .ok name) ∨
      ∃ fault, filterName v = .error fault ∧ fault.IsReported) := by
  constructor
  · intro name
    rw [filterName_eq_ok_iff, isFilterName_iff, and_comm (b := name.length ≤ nameLimit)]
  · cases h : filterName v with
    | ok name => exact .inl ⟨name, rfl⟩
    | error fault => exact .inr ⟨fault, rfl, isReported_of_filterName h⟩

/-- A name with a line feed behind it is accepted as it stands. -/
example : filterName (.text "notes\n") = .ok "notes\n" := by rfl

end Winnow
