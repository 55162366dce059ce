/-
Winnow/Proofs/Settings/Reading.lean

What a text stands for where only texts can be given.

A truth value is looked for first, then an integer, then a float, and what is none of
them stays a text.  The order decides nothing between truth values and numbers: the
four words are made of letters, a number has a digit in it or is one of three other
words (`not_spellsFloat_of_isOneOf`).  It does between integers and floats, for all
that spells an integer spells a float as well.

So the spelling of a text alone says what it stands for (`read_by_spelling`), and what
integers are printed as is read back.
-/
import Winnow.Proofs.Decimal.Floats
import Winnow.Settings.Reading

namespace Winnow.Setting

open Winnow.Decimal (SpellsInteger SpellsFloat IsFloat IsMantissa digitLimit)
open Winnow.Text (IsOneOf digitValue? trimBlank isBlank)

variable {s : String} {words : List String} {cs : List Char}

/-- The words for a truth value. -/
def wordsFor (b : Bool) : List String := if b then yesWords else noWords

/-- The text is one of the four words for truth values. -/
def IsWord (s : String) : Prop := ∃ b, IsOneOf (wordsFor b) s.toList

/-- The text spells an integer that is not too long. -/
def IsShortInteger (s : String) (n : Int) : Prop :=
  ∃ count ≤ digitLimit, SpellsInteger s.toList n count

/-! ### Words and numbers -/

theorem isPlain_of_wordsFor (b : Bool) : ∀ w ∈ wordsFor b, ∀ c ∈ w.toList, Text.IsPlain c := by
  have hall : ∀ w ∈ wordsFor b, w.toList.all (fun c => decide (Text.IsPlain c)) = true := by
    cases b <;> decide
  exact fun w hw c hc => of_decide_eq_true (List.all_eq_true.mp (hall w hw) c hc)

/-- The words for yes and no are different. -/
theorem not_isOneOf_both : ¬ (IsOneOf (wordsFor true) cs ∧ IsOneOf (wordsFor false) cs) := by
  rintro ⟨hyes, hno⟩
  have hwords : ∀ w ∈ wordsFor true, w ∉ wordsFor false := by decide
  exact hwords _ hyes hno

/-- There is a digit in every number. -/
theorem exists_digit_of_isMantissa (h : IsMantissa cs) : ∃ c ∈ cs, ∃ d, digitValue? c = some d := by
  have hrow {cs : List Char} {ds : List Nat} (h : Decimal.DigitRow cs ds) :
      ∃ c ∈ cs, ∃ d, digitValue? c = some d := by
    obtain ⟨c, rest, d, rfl, hd⟩ := h.exists_cons
    exact ⟨c, List.mem_cons_self, d, hd⟩
  cases h with
  | whole h => exact hrow h
  | ended h =>
    obtain ⟨c, hc, hd⟩ := hrow h
    exact ⟨c, List.mem_append_left _ hc, hd⟩
  | fraction h =>
    obtain ⟨c, hc, hd⟩ := hrow h
    exact ⟨c, List.mem_cons_of_mem _ hc, hd⟩
  | parted h _ =>
    obtain ⟨c, hc, hd⟩ := hrow h
    exact ⟨c, List.mem_append_left _ hc, hd⟩

/-- **No word for a truth value is a number**: it has no digits and is not one of the
special words. -/
theorem not_spellsFloat_of_isOneOf {b : Bool} (h : IsOneOf (wordsFor b) cs) :
    ¬ SpellsFloat cs := by
  intro hfloat
  have hletters : ∀ c ∈ cs, digitValue? c = none ∧ isBlank c = false ∧ c ∉ ['_', '+', '-'] :=
    fun c hc => Decimal.of_letter
      (Decimal.letter_of_isOneOf (fun w hw => List.all_eq_true.mpr fun e he =>
        (isPlain_of_wordsFor b w hw e he).1) h hc)
  have htrim : trimBlank cs = cs := Decimal.trimBlank_of_surrounds
    ⟨[], [], by rw [List.nil_append, List.append_nil], nofun, nofun⟩ fun c hc => (hletters c hc).2.1
  obtain ⟨sign, negative, body, hcs, hsign, hbody⟩ := Decimal.spellsFloat_iff.mp hfloat
  rw [htrim] at hcs
  subst hcs
  cases hbody with
  | number hmantissa hexponent =>
    obtain ⟨c, hc, d, hd⟩ := exists_digit_of_isMantissa hmantissa
    have hnone := (hletters c (List.mem_append_right _ (List.mem_append_left _ hc))).1
    rw [hd] at hnone
    cases hnone
  | special hword =>
    cases hsign with
    | none =>
      have hwords : ∀ w ∈ wordsFor b, w ∉ Decimal.specialWords := by cases b <;> decide
      exact hwords _ h hword
    | plus => exact (hletters '+' List.mem_cons_self).2.2 (by decide)
    | minus => exact (hletters '-' List.mem_cons_self).2.2 (by decide)

theorem IsShortInteger.spellsFloat {n : Int} (h : IsShortInteger s n) : SpellsFloat s.toList := by
  obtain ⟨count, -, hspells⟩ := h
  exact hspells.spellsFloat

theorem not_isWord_of_spellsFloat (h : SpellsFloat s.toList) : ¬ IsWord s :=
  fun ⟨_, hword⟩ => not_spellsFloat_of_isOneOf hword h

/-! ### Reading -/

theorem read_eq (s : String) : read s =
    if Text.lower s ∈ wordsFor true then .truth true
    else if Text.lower s ∈ wordsFor false then .truth false
    else readNumber s := by
  simp only [read, List.contains_iff_mem]
  rfl

theorem lower_mem_wordsFor {b : Bool} :
    Text.lower s ∈ wordsFor b ↔ IsOneOf (wordsFor b) s.toList :=
  Text.lower_mem_iff_isOneOf (isPlain_of_wordsFor b)

theorem read_of_isOneOf {b : Bool} (h : IsOneOf (wordsFor b) s.toList) : read s = .truth b := by
  rw [read_eq]
  cases b with
  | true => rw [if_pos (lower_mem_wordsFor.mpr h)]
  | false =>
    rw [if_neg fun hyes => not_isOneOf_both ⟨lower_mem_wordsFor.mp hyes, h⟩,
      if_pos (lower_mem_wordsFor.mpr h)]

theorem read_of_not_isWord (h : ¬ IsWord s) : read s = readNumber s := by
  rw [read_eq, if_neg fun hyes => h ⟨true, lower_mem_wordsFor.mp hyes⟩,
    if_neg fun hno => h ⟨false, lower_mem_wordsFor.mp hno⟩]

theorem read_of_isShortInteger {n : Int} (h : IsShortInteger s n) : read s = .integer n := by
  rw [read_of_not_isWord (not_isWord_of_spellsFloat h.spellsFloat), readNumber,
    Decimal.readInteger_eq_ok_iff.mpr h]

/-- Where no integer is read, a float is looked for. -/
theorem readNumber_of_not_isShortInteger (h : ∀ n, ¬ IsShortInteger s n) :
    readNumber s = match Decimal.readFloat? s.toList with
      | some x => .ofFloat Scalar.commonMark x
      | none => .text s := by
  unfold readNumber
  cases hread : Decimal.readInteger 10 s.toList with
  | ok n => exact absurd (Decimal.readInteger_eq_ok_iff.mp hread) (h n)
  | error fault => rfl

theorem read_of_spellsFloat (h : SpellsFloat s.toList) (hlong : ∀ n, ¬ IsShortInteger s n) :
    ∃ x, read s = .ofFloat Scalar.commonMark x := by
  obtain ⟨x, hx⟩ := Option.isSome_iff_exists.mp (Decimal.isSome_readFloat?_iff.mpr h)
  refine ⟨x, ?_⟩
  rw [read_of_not_isWord (not_isWord_of_spellsFloat h), readNumber_of_not_isShortInteger hlong, hx]

theorem read_of_not_spellsFloat (hword : ¬ IsWord s) (h : ¬ SpellsFloat s.toList) :
    read s = .text s := by
  rw [read_of_not_isWord hword,
    readNumber_of_not_isShortInteger fun n hn => h hn.spellsFloat]
  cases hread : Decimal.readFloat? s.toList with
  | none => rfl
  | some x =>
    rw [← Decimal.isSome_readFloat?_iff, hread] at h
    exact absurd rfl h

/-- What a text can stand for: a truth value, an integer, a float, or itself. -/
theorem read_cases (s : String) :
    (∃ b, read s = .truth b ∧ IsOneOf (wordsFor b) s.toList) ∨
    (∃ n, read s = .integer n ∧ IsShortInteger s n) ∨
    ((∃ x, read s = .ofFloat Scalar.commonMark x) ∧ SpellsFloat s.toList ∧
      ∀ n, ¬ IsShortInteger s n) ∨
    (read s = .text s ∧ ¬ IsWord s ∧ ¬ SpellsFloat s.toList) := by
  by_cases hword : IsWord s
  · obtain ⟨b, hb⟩ := hword
    exact .inl ⟨b, read_of_isOneOf hb, hb⟩
  by_cases hinteger : ∃ n, IsShortInteger s n
  · obtain ⟨n, hn⟩ := hinteger
    exact .inr (.inl ⟨n, read_of_isShortInteger hn, hn⟩)
  have hlong := not_exists.mp hinteger
  by_cases hfloat : SpellsFloat s.toList
  · exact .inr (.inr (.inl ⟨read_of_spellsFloat hfloat hlong, hfloat, hlong⟩))
  · exact .inr (.inr (.inr ⟨read_of_not_spellsFloat hword hfloat, hword, hfloat⟩))

theorem kind_ofFloat (mark : Nat) (x : Float) : (Scalar.ofFloat mark x).kind = .float := by
  unfold Scalar.ofFloat
  split <;> rfl

/-- The kind of what a text stands for. -/
theorem kind_read_cases (s : String) :
    (read s).kind = .truth ∧ IsWord s ∨
    (read s).kind = .integer ∧ (∃ n, IsShortInteger s n) ∨
    (read s).kind = .float ∧ SpellsFloat s.toList ∧ (∀ n, ¬ IsShortInteger s n) ∨
    (read s).kind = .text ∧ ¬ IsWord s ∧ ¬ SpellsFloat s.toList := by
  rcases read_cases s with ⟨b, hread, hb⟩ | ⟨n, hread, hn⟩ | ⟨⟨x, hread⟩, h⟩ | ⟨hread, h⟩
  all_goals rw [hread]
  · exact .inl ⟨rfl, b, hb⟩
  · exact .inr (.inl ⟨rfl, n, hn⟩)
  · exact .inr (.inr (.inl ⟨kind_ofFloat _ x, h⟩))
  · exact .inr (.inr (.inr ⟨rfl, h⟩))

theorem read_eq_integer_iff {n : Int} : read s = .integer n ↔ IsShortInteger s n := by
  refine ⟨fun h => ?_, read_of_isShortInteger⟩
  rcases read_cases s with ⟨b, hread, -⟩ | ⟨m, hread, hm⟩ | ⟨⟨x, hread⟩, -⟩ | ⟨hread, -⟩
  all_goals rw [hread] at h
  · cases h
  · cases h
    exact hm
  · have hkind := kind_ofFloat Scalar.commonMark x
    rw [h] at hkind
    cases hkind
  · cases h

theorem read_eq_truth_iff {b : Bool} : read s = .truth b ↔ IsOneOf (wordsFor b) s.toList := by
  refine ⟨fun h => ?_, read_of_isOneOf⟩
  rcases read_cases s with ⟨c, hread, hc⟩ | ⟨m, hread, -⟩ | ⟨⟨x, hread⟩, -⟩ | ⟨hread, -⟩
  all_goals rw [hread] at h
  · cases h
    exact hc
  · cases h
  · have hkind := kind_ofFloat Scalar.commonMark x
    rw [h] at hkind
    cases hkind
  · cases h

theorem kind_read_eq_float_iff : (read s).kind = .float ↔
    SpellsFloat s.toList ∧ ∀ n, ¬ IsShortInteger s n := by
  refine ⟨fun h => ?_, fun ⟨hfloat, hlong⟩ => ?_⟩
  · rcases kind_read_cases s with ⟨hkind, -⟩ | ⟨hkind, -⟩ | ⟨-, hfloat⟩ | ⟨hkind, -⟩
    all_goals first | exact hfloat | (rw [hkind] at h; cases h)
  · obtain ⟨x, hread⟩ := read_of_spellsFloat hfloat hlong
    rw [hread, kind_ofFloat]

theorem read_eq_text_iff {t : String} :
    read s = .text t ↔ t = s ∧ ¬ IsWord s ∧ ¬ SpellsFloat s.toList := by
  constructor
  · intro h
    have htext : (read s).kind = .text := by rw [h]; rfl
    rcases kind_read_cases s with ⟨hkind, -⟩ | ⟨hkind, -⟩ | ⟨hkind, -⟩ | ⟨-, hword, hfloat⟩
    all_goals try (rw [hkind] at htext; cases htext)
    rw [read_of_not_spellsFloat hword hfloat] at h
    cases h
    exact ⟨rfl, hword, hfloat⟩
  · rintro ⟨rfl, hword, hfloat⟩
    exact read_of_not_spellsFloat hword hfloat

/-- What an integer is printed as is read back, unless it has too many digits. -/
theorem read_toString_iff (n : Int) :
    read (toString n) = .integer n ↔ (Nat.toDigits 10 n.natAbs).length ≤ digitLimit := by
  have hspells := Decimal.spellsInteger_toString n
  rw [read_eq_integer_iff]
  constructor
  · rintro ⟨count, hcount, h⟩
    rwa [(hspells.unique h).2]
  · exact fun h => ⟨_, h, hspells⟩

/-- **The spelling of a text alone says what it stands for.**  What spells an integer with
no more digits than the limit stands for it, above all what an integer is printed as; the
words for truth values stand for these in any case of their letters; what is neither such
a word nor spells a number, be it an integer or a float, stays as it is; and every text
stands for a truth value, an integer, a float or a text. -/
theorem read_by_spelling :
    (∀ s n, read s = .integer n ↔ ∃ count ≤ digitLimit, SpellsInteger s.toList n count) ∧
    (∀ n : Int, read (toString n) = .integer n
      ↔ (Nat.toDigits 10 n.natAbs).length ≤ digitLimit) ∧
    (∀ s b, read s = .truth b ↔ IsOneOf (wordsFor b) s.toList) ∧
    (∀ s t, read s = .text t ↔ t = s ∧ ¬ IsWord s ∧ ¬ SpellsFloat s.toList) ∧
    (∀ s, (read s).kind = .float ↔ SpellsFloat s.toList ∧ ∀ n, ¬ IsShortInteger s n) ∧
    ∀ s, (read s).kind ∈ [Kind.truth, .integer, .float, .text] := by
  refine ⟨fun s n => read_eq_integer_iff, read_toString_iff, fun s b => read_eq_truth_iff,
    fun s t => read_eq_text_iff, fun s => kind_read_eq_float_iff, fun s => ?_⟩
  rcases kind_read_cases s with ⟨hkind, -⟩ | ⟨hkind, -⟩ | ⟨hkind, -⟩ | ⟨hkind, -⟩
  all_goals rw [hkind]; decide

example : read " -٣_0\n" = .integer (-30) := rfl

end Winnow.Setting
