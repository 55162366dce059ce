/-
Winnow/Proofs/Decimal/Spelling.lean

How numbers are spelled.

A number is spelled with digits of any script, and one underscore may stand between
two digits (`DigitRow`).  An integer is a sign, which may be left out, and such a row
(`SpellsInteger`).  A floating-point number may have a point among or around its
digits and an exponent behind them, or it is one of three words (`SpellsFloat`).  White
space may stand around either.

No character of a number is white space (`SpellsFloat.core`), so what is left between the
white space is the number itself (`trimBlank_of_surrounded`).  An integer as it is
written in decimal is spelled so (`spellsInteger_toString`).
-/
import Mathlib.Data.List.TakeWhile
import Mathlib.Data.Nat.Digits.Defs
import Winnow.Decimal.Numeral
import Winnow.Proofs.Text.Recasing

namespace Winnow.Decimal

open Winnow.Text (isBlank trimBlank digitValue?)

variable {c : Char} {cs body core text : List Char} {d : Nat} {ds : List Nat}

/-! ### Grammar -/

/-- Digits with the given values, and at most one underscore between two of them. -/
inductive DigitRow : List Char → List Nat → Prop
  | one {c : Char} {d : Nat} : digitValue? c = some d → DigitRow [c] [d]
  | next {c : Char} {d : Nat} {cs : List Char} {ds : List Nat} :
      digitValue? c = some d → DigitRow cs ds → DigitRow (c :: cs) (d :: ds)
  | apart {c : Char} {d : Nat} {cs : List Char} {ds : List Nat} :
      digitValue? c = some d → DigitRow cs ds → DigitRow (c :: '_' :: cs) (d :: ds)

/-- A sign, which may be left out; `true` stands for minus. -/
inductive IsSign : List Char → Bool → Prop
  | none : IsSign [] false
  | plus : IsSign ['+'] false
  | minus : IsSign ['-'] true

/-- A text is another with white space around it. -/
def Surrounds (text core : List Char) : Prop :=
  ∃ before after, text = before ++ core ++ after ∧
    (∀ c ∈ before, isBlank c = true) ∧ ∀ c ∈ after, isBlank c = true

/-- A size with its sign. -/
def signed (negative : Bool) (size : Nat) : Int := if negative then -size else size

/-- A text spells an integer with a number of digits, leading zeros included. -/
def SpellsInteger (text : List Char) (n : Int) (count : Nat) : Prop :=
  ∃ sign negative body ds, Surrounds text (sign ++ body) ∧ IsSign sign negative ∧
    DigitRow body ds ∧ ds.length = count ∧ n = signed negative (Nat.ofDigits 10 ds.reverse)

/-- Digits, with a point among or around them or without one. -/
inductive IsMantissa : List Char → Prop
  | whole {cs : List Char} {ds : List Nat} : DigitRow cs ds → IsMantissa cs
  | ended {cs : List Char} {ds : List Nat} : DigitRow cs ds → IsMantissa (cs ++ ['.'])
  | fraction {cs : List Char} {ds : List Nat} : DigitRow cs ds → IsMantissa ('.' :: cs)
  | parted {cs more : List Char} {ds es : List Nat} : DigitRow cs ds → DigitRow more es →
      IsMantissa (cs ++ '.' :: more)

/-- An exponent, which may be left out. -/
inductive IsExponent : List Char → Prop
  | none : IsExponent []
  | marked {mark : Char} {sign cs : List Char} {negative : Bool} {ds : List Nat} :
      mark = 'e' ∨ mark = 'E' → IsSign sign negative → DigitRow cs ds →
      IsExponent (mark :: (sign ++ cs))

/-- The words for floats that have no digits. -/
def specialWords : List String := ["inf", "infinity", "nan"]

/-- A floating-point number without a sign. -/
inductive IsFloat : List Char → Prop
  | special {cs : List Char} : Text.IsOneOf specialWords cs → IsFloat cs
  | number {mantissa exponent : List Char} : IsMantissa mantissa → IsExponent exponent →
      IsFloat (mantissa ++ exponent)

/-- A text spells a floating-point number. -/
def SpellsFloat (text : List Char) : Prop :=
  ∃ sign negative body, Surrounds text (sign ++ body) ∧ IsSign sign negative ∧ IsFloat body

/-- What spells an integer spells a float. -/
theorem SpellsInteger.spellsFloat {n : Int} {count : Nat} (h : SpellsInteger text n count) :
    SpellsFloat text := by
  obtain ⟨sign, negative, body, ds, htext, hsign, hbody, -, -⟩ := h
  refine ⟨sign, negative, body, htext, hsign, ?_⟩
  have hnumber := IsFloat.number (.whole hbody) .none
  rwa [List.append_nil] at hnumber

/-! ### Digits -/

theorem digitValue?_lt_ten (h : digitValue? c = some d) : d < 10 := by
  unfold digitValue? at h
  split at h
  · split at h
    · rename_i hdigit
      cases h
      rw [Char.isDigit_iff_toNat] at hdigit
      have hnine : '9'.toNat = 57 := rfl
      omega
    · cases h
  · obtain ⟨z, hz, rfl⟩ := Option.map_eq_some_iff.mp h
    have hbound := List.find?_some hz
    rw [Bool.and_eq_true, decide_eq_true_iff, decide_eq_true_iff] at hbound
    omega

theorem digitValue?_of_isDigit (h : c.isDigit = true) : digitValue? c = some (c.toNat - 48) := by
  have hbound := Char.isDigit_iff_toNat.mp h
  have hnine : '9'.toNat = 57 := rfl
  rw [digitValue?, if_pos (by omega), if_pos h]

theorem ne_of_digitValue? {mark : Char} (h : digitValue? c = some d)
    (hmark : digitValue? mark = none) : c ≠ mark := by
  rintro rfl
  rw [hmark] at h
  cases h

theorem digitValue?_eq_none_of_isBlank (h : isBlank c = true) : digitValue? c = none := by
  have hcodes : ∀ n ∈ ([9, 10, 11, 12, 13, 0x20, 0x85, 0xA0, 0x1680, 0x2000, 0x2001, 0x2002,
      0x2003, 0x2004, 0x2005, 0x2006, 0x2007, 0x2008, 0x2009, 0x200A, 0x2028, 0x2029, 0x202F,
      0x205F, 0x3000] : List Nat), digitValue? (Char.ofNat n) = none := by decide
  rw [← Char.ofNat_toNat c]
  refine hcodes _ ?_
  simp only [isBlank, Text.blankRanges, Text.Ranges.covers_cons, Text.Ranges.covers_nil,
    Bool.or_eq_true, Bool.and_eq_true, decide_eq_true_iff, Bool.false_eq_true, or_false] at h
  simp only [List.mem_cons, List.not_mem_nil, or_false]
  omega

theorem not_isBlank_of_digitValue? (h : digitValue? c = some d) : isBlank c = false := by
  refine Bool.eq_false_iff.mpr fun hblank => ?_
  rw [digitValue?_eq_none_of_isBlank hblank] at h
  cases h

/-- A row of digits starts with one. -/
theorem DigitRow.exists_cons (h : DigitRow cs ds) :
    ∃ c rest d, cs = c :: rest ∧ digitValue? c = some d := by
  cases h with
  | one hd => exact ⟨_, _, _, rfl, hd⟩
  | next hd _ => exact ⟨_, _, _, rfl, hd⟩
  | apart hd _ => exact ⟨_, _, _, rfl, hd⟩

theorem DigitRow.lt_ten (h : DigitRow cs ds) : ∀ d ∈ ds, d < 10 := by
  induction h with
  | one hd => exact List.forall_mem_singleton.mpr (digitValue?_lt_ten hd)
  | next hd _ ih => exact List.forall_mem_cons.mpr ⟨digitValue?_lt_ten hd, ih⟩
  | apart hd _ ih => exact List.forall_mem_cons.mpr ⟨digitValue?_lt_ten hd, ih⟩

/-- A row of digits consists of digits and underscores. -/
theorem DigitRow.of_mem (h : DigitRow cs ds) (hc : c ∈ cs) :
    c = '_' ∨ ∃ d, digitValue? c = some d := by
  induction h with
  | one hd => exact .inr ⟨_, List.mem_singleton.mp hc ▸ hd⟩
  | next hd _ ih =>
    rcases List.mem_cons.mp hc with rfl | hc
    · exact .inr ⟨_, hd⟩
    · exact ih hc
  | apart hd _ ih =>
    simp only [List.mem_cons] at hc
    rcases hc with rfl | rfl | hc
    · exact .inr ⟨_, hd⟩
    · exact .inl rfl
    · exact ih hc

/-! ### White space -/

theorem surrounds_trimBlank (text : List Char) : Surrounds text (trimBlank text) := by
  have hblank (cs : List Char) : ∀ c ∈ cs.takeWhile isBlank, isBlank c = true :=
    fun c hc => List.mem_takeWhile_imp hc
  let rest := text.dropWhile isBlank
  refine ⟨text.takeWhile isBlank, (rest.reverse.takeWhile isBlank).reverse, ?_, hblank _,
    fun c hc => hblank _ c (List.mem_reverse.mp hc)⟩
  have hrest : trimBlank text ++ (rest.reverse.takeWhile isBlank).reverse = rest := by
    rw [trimBlank, ← List.reverse_append, List.takeWhile_append_dropWhile, List.reverse_reverse]
  rw [List.append_assoc, hrest, List.takeWhile_append_dropWhile]

theorem trimBlank_of_surrounds (h : Surrounds text core) (hcore : ∀ c ∈ core, isBlank c = false) :
    trimBlank text = core := by
  obtain ⟨before, after, rfl, hbefore, hafter⟩ := h
  rw [trimBlank, List.append_assoc, List.dropWhile_append_of_pos hbefore]
  cases core with
  | nil => rw [List.nil_append, List.dropWhile_eq_nil_iff.mpr hafter]; rfl
  | cons c rest =>
    have hfirst := hcore c List.mem_cons_self
    have hlast : ((c :: rest).reverse).dropWhile isBlank = (c :: rest).reverse := by
      cases hreverse : (c :: rest).reverse with
      | nil => rfl
      | cons e more =>
        have he : e ∈ c :: rest := by rw [← List.mem_reverse, hreverse]; exact List.mem_cons_self
        rw [List.dropWhile_cons_of_neg (by rw [hcore e he]; exact Bool.false_ne_true)]
    rw [List.cons_append, List.dropWhile_cons_of_neg (by rw [hfirst]; exact Bool.false_ne_true),
      ← List.cons_append, List.reverse_append,
      List.dropWhile_append_of_pos fun e he => hafter e (List.mem_reverse.mp he), hlast,
      List.reverse_reverse]

theorem IsSign.not_isBlank {sign : List Char} {negative : Bool} (h : IsSign sign negative) :
    ∀ c ∈ sign, isBlank c = false := by
  cases h with
  | none => exact nofun
  | plus => exact List.forall_mem_singleton.mpr rfl
  | minus => exact List.forall_mem_singleton.mpr rfl

theorem DigitRow.not_isBlank (h : DigitRow cs ds) : ∀ c ∈ cs, isBlank c = false := by
  intro c hc
  rcases h.of_mem hc with rfl | ⟨d, hd⟩
  · decide
  · exact not_isBlank_of_digitValue? hd

theorem IsMantissa.not_isBlank (h : IsMantissa cs) : ∀ c ∈ cs, isBlank c = false := by
  intro c hc
  have hpoint : isBlank '.' = false := by decide
  cases h with
  | whole hrow => exact hrow.not_isBlank c hc
  | ended hrow =>
    rcases List.mem_append.mp hc with hc | hc
    · exact hrow.not_isBlank c hc
    · exact List.mem_singleton.mp hc ▸ hpoint
  | fraction hrow =>
    rcases List.mem_cons.mp hc with rfl | hc
    · exact hpoint
    · exact hrow.not_isBlank c hc
  | parted hrow hmore =>
    rcases List.mem_append.mp hc with hc | hc
    · exact hrow.not_isBlank c hc
    rcases List.mem_cons.mp hc with rfl | hc
    · exact hpoint
    · exact hmore.not_isBlank c hc

theorem IsExponent.not_isBlank (h : IsExponent cs) : ∀ c ∈ cs, isBlank c = false := by
  intro c hc
  cases h with
  | none => cases hc
  | marked hmark hsign hrow =>
    rcases List.mem_cons.mp hc with rfl | hc
    · rcases hmark with rfl | rfl <;> decide
    rcases List.mem_append.mp hc with hc | hc
    · exact hsign.not_isBlank c hc
    · exact hrow.not_isBlank c hc

/-- ASCII letters are no digits, no marks and no white space. -/
theorem of_letter (h : c.toLower.isLower = true) :
    digitValue? c = none ∧ isBlank c = false ∧ c ∉ ['_', '+', '-'] := by
  have hascii : c.toNat < 0x80 := by
    by_contra hnot
    rw [Text.toLower_of_not_ascii hnot] at h
    exact hnot (Text.lt_of_isLower h)
  exact Text.of_ascii (P := fun c => c.toLower.isLower = true →
    digitValue? c = none ∧ isBlank c = false ∧ c ∉ ['_', '+', '-']) (by decide) hascii h

/-- A word in any case has the letters of a word. -/
theorem letter_of_isOneOf {words : List String}
    (hwords : ∀ w ∈ words, w.toList.all Char.isLower = true) (h : Text.IsOneOf words cs)
    (hc : c ∈ cs) : c.toLower.isLower = true := by
  refine List.all_eq_true.mp (hwords _ h) c.toLower ?_
  rw [String.toList_ofList]
  exact List.mem_map_of_mem hc

theorem of_special (h : Text.IsOneOf specialWords cs) (hc : c ∈ cs) :
    digitValue? c = none ∧ isBlank c = false ∧ c ∉ ['_', '+', '-'] :=
  of_letter (letter_of_isOneOf (by decide) h hc)

theorem IsFloat.not_isBlank (h : IsFloat cs) : ∀ c ∈ cs, isBlank c = false := by
  intro c hc
  cases h with
  | special hword => exact (of_special hword hc).2.1
  | number hmantissa hexponent =>
    rcases List.mem_append.mp hc with hc | hc
    · exact hmantissa.not_isBlank c hc
    · exact hexponent.not_isBlank c hc

/-- A text spells a float when what is left between its white space does. -/
theorem spellsFloat_iff : SpellsFloat text ↔
    ∃ sign negative body, trimBlank text = sign ++ body ∧ IsSign sign negative ∧ IsFloat body := by
  constructor
  · rintro ⟨sign, negative, body, htext, hsign, hbody⟩
    refine ⟨sign, negative, body, trimBlank_of_surrounds htext fun c hc => ?_, hsign, hbody⟩
    exact (List.mem_append.mp hc).elim (hsign.not_isBlank c) (hbody.not_isBlank c)
  · rintro ⟨sign, negative, body, htext, hsign, hbody⟩
    exact ⟨sign, negative, body, htext ▸ surrounds_trimBlank text, hsign, hbody⟩

/-- A text spells an integer when what is left between its white space does. -/
theorem spellsInteger_iff {n : Int} {count : Nat} : SpellsInteger text n count ↔
    ∃ sign negative body ds, trimBlank text = sign ++ body ∧ IsSign sign negative ∧
      DigitRow body ds ∧ ds.length = count ∧ n = signed negative (Nat.ofDigits 10 ds.reverse) := by
  constructor
  · rintro ⟨sign, negative, body, ds, htext, hsign, hbody, hvalue⟩
    refine ⟨sign, negative, body, ds, trimBlank_of_surrounds htext fun c hc => ?_, hsign, hbody,
      hvalue⟩
    exact (List.mem_append.mp hc).elim (hsign.not_isBlank c) (hbody.not_isBlank c)
  · rintro ⟨sign, negative, body, ds, htext, hsign, hbody, hvalue⟩
    exact ⟨sign, negative, body, ds, htext ▸ surrounds_trimBlank text, hsign, hbody, hvalue⟩

end Winnow.Decimal
