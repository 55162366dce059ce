/-
Winnow/Proofs/Decimal/Floats.lean

What is read as a floating-point number.

Such a number is read in two rounds: digits of all scripts become those of ASCII and
underscores between digits go (`plain?`), and what is left is taken apart.  The first
round turns a row of digits into the same digits without underscores, whatever is
behind it (`plain?_row`), and digits in what it leaves come from such a row
(`exists_row_of_plain?`); a character that is no digit is left where it stands
(`plain?_cons`, `exists_cons_of_plain?`).  So the parts of a number are the same before
and after it, and a text is read as a float exactly when it spells one
(`isSome_readFloat?_iff`).
-/
import Winnow.Proofs.Decimal.Integers

namespace Winnow.Decimal

open Winnow.Text (trimBlank digitValue?)

variable {c : Char} {cs plain rest text body sign mantissa exponent : List Char} {d : Nat}
  {ds : List Nat} {after negative : Bool}

/-! ### Digits of ASCII -/

theorem asciiDigit_of_digit (h : digitValue? c = some d) : asciiDigit c = Nat.digitChar d := by
  rw [asciiDigit, h]
  rfl

theorem asciiDigit_of_none (h : digitValue? c = none) : asciiDigit c = c := by
  rw [asciiDigit, h]
  rfl

theorem isDigit_digitChar (h : digitValue? c = some d) : (Nat.digitChar d).isDigit = true := by
  have hall : ∀ d < 10, (Nat.digitChar d).isDigit = true := by decide
  exact hall d (digitValue?_lt_ten h)

theorem not_isDigit_of_none (h : digitValue? c = none) : c.isDigit = false := by
  refine Bool.eq_false_iff.mpr fun hdigit => ?_
  rw [digitValue?_of_isDigit hdigit] at h
  cases h

theorem ne_underscore_of_isDigit (h : c.isDigit = true) : c ≠ '_' := by
  rintro rfl
  cases h

/-! ### The first round -/

/-- A text with the digits of ASCII and without underscores. -/
def plain? (after : Bool) (cs : List Char) : Option (List Char) :=
  dropUnderscores? after (cs.map asciiDigit)

theorem dropUnderscores?_cons (hc : c ≠ '_') :
    dropUnderscores? after (c :: cs) = (dropUnderscores? c.isDigit cs).map (c :: ·) := by
  rw [dropUnderscores?, Option.map_eq_bind]
  · rfl
  · exact fun _ _ h _ => absurd h hc
  · exact fun h _ => absurd h hc

/-- A character that is no digit stays. -/
theorem plain?_cons (h : digitValue? c = none) (hc : c ≠ '_') :
    plain? after (c :: cs) = (plain? false cs).map (c :: ·) := by
  rw [plain?, List.map_cons, asciiDigit_of_none h, dropUnderscores?_cons hc,
    not_isDigit_of_none h, plain?]

/-- A digit becomes one of ASCII. -/
theorem plain?_digit (h : digitValue? c = some d) :
    plain? after (c :: cs) = (plain? true cs).map (Nat.digitChar d :: ·) := by
  have hdigit := isDigit_digitChar h
  rw [plain?, List.map_cons, asciiDigit_of_digit h,
    dropUnderscores?_cons (ne_underscore_of_isDigit hdigit), hdigit, plain?]

/-- An underscore goes when it stands between digits, and cannot stand elsewhere. -/
theorem plain?_underscore :
    plain? after ('_' :: c :: cs)
      = if after = true ∧ (digitValue? c).isSome then plain? after (c :: cs) else none := by
  have hunderscore : asciiDigit '_' = '_' := by decide
  rw [plain?, List.map_cons, List.map_cons, hunderscore, dropUnderscores?]
  cases h : digitValue? c with
  | none =>
    rw [asciiDigit_of_none h, not_isDigit_of_none h, Bool.and_false, if_neg (by simp)]
    rfl
  | some d =>
    rw [plain?_digit h, asciiDigit_of_digit h, isDigit_digitChar h, Bool.and_true, plain?]
    cases after
    · rfl
    · simp only [guard_true, Option.bind_eq_bind]
      rw [Option.map_eq_bind]
      rfl

/-- What the first round can do: nothing is left of nothing, a character that is no
digit stays, and a digit becomes one of ASCII, perhaps from behind an underscore. -/
theorem plain?_inv (h : plain? after cs = some plain) : (cs = [] ∧ plain = []) ∨
    (∃ c more rest, cs = c :: more ∧ plain = c :: rest ∧ digitValue? c = none ∧
      plain? false more = some rest) ∨
    (∃ c more rest d, (cs = c :: more ∨ after = true ∧ cs = '_' :: c :: more) ∧
      plain = Nat.digitChar d :: rest ∧ digitValue? c = some d ∧
      plain? true more = some rest) := by
  have hdigit {c : Char} {more : List Char} {d : Nat} (hd : digitValue? c = some d)
      (h : plain? after (c :: more) = some plain) :
      ∃ rest, plain = Nat.digitChar d :: rest ∧ plain? true more = some rest := by
    rw [plain?_digit hd, Option.map_eq_some_iff] at h
    obtain ⟨rest, hmore, rfl⟩ := h
    exact ⟨rest, rfl, hmore⟩
  match cs with
  | [] =>
    cases h
    exact .inl ⟨rfl, rfl⟩
  | c :: more =>
    by_cases hc : c = '_'
    · subst hc
      cases more with
      | nil => cases h
      | cons c more =>
        rw [plain?_underscore] at h
        split at h
        · rename_i hbetween
          obtain ⟨d, hd⟩ := Option.isSome_iff_exists.mp hbetween.2
          obtain ⟨rest, hplain, hmore⟩ := hdigit hd h
          exact .inr (.inr ⟨c, more, rest, d, .inr ⟨hbetween.1, rfl⟩, hplain, hd, hmore⟩)
        · cases h
    cases hd : digitValue? c with
    | none =>
      rw [plain?_cons hd hc, Option.map_eq_some_iff] at h
      obtain ⟨rest, hmore, rfl⟩ := h
      exact .inr (.inl ⟨c, more, rest, rfl, rfl, hd, hmore⟩)
    | some d =>
      obtain ⟨rest, hplain, hmore⟩ := hdigit hd h
      exact .inr (.inr ⟨c, more, rest, d, .inl rfl, hplain, hd, hmore⟩)

/-- What leaves nothing is nothing. -/
theorem eq_nil_of_plain? (h : plain? after cs = some []) : cs = [] := by
  rcases plain?_inv h with ⟨rfl, -⟩ | ⟨_, _, _, -, hplain, -⟩ | ⟨_, _, _, _, -, hplain, -⟩
  · rfl
  · cases hplain
  · cases hplain

/-- A character that is no digit was there before. -/
theorem exists_cons_of_plain? (h : plain? after cs = some (c :: rest)) (hc : c.isDigit = false) :
    ∃ more, cs = c :: more ∧ plain? false more = some rest := by
  rcases plain?_inv h with ⟨-, hplain⟩ | ⟨_, more, _, rfl, hplain, -, hmore⟩ |
    ⟨_, _, _, d, -, hplain, hd, -⟩
  · cases hplain
  · cases hplain
    exact ⟨more, rfl, hmore⟩
  · cases hplain
    rw [isDigit_digitChar hd] at hc
    cases hc

/-- A text without digits was there before. -/
theorem eq_of_plain? (h : plain? after cs = some plain) (hplain : ∀ c ∈ plain, c.isDigit = false) :
    cs = plain := by
  induction plain generalizing after cs with
  | nil => exact eq_nil_of_plain? h
  | cons c rest ih =>
    obtain ⟨hc, hrest⟩ := List.forall_mem_cons.mp hplain
    obtain ⟨more, rfl, hmore⟩ := exists_cons_of_plain? h hc
    rw [ih hmore hrest]

/-- A text without digits and underscores stays. -/
theorem plain?_eq_self (h : ∀ c ∈ cs, digitValue? c = none ∧ c ≠ '_') :
    plain? after cs = some cs := by
  induction cs generalizing after with
  | nil => rfl
  | cons c rest ih =>
    obtain ⟨⟨hc, hunderscore⟩, hrest⟩ := List.forall_mem_cons.mp h
    rw [plain?_cons hc hunderscore, ih hrest, Option.map_some]

/-- Digits come from a row of them, by induction on the digits. -/
theorem exists_row_of_plain? {w : List Char} (h : plain? after cs = some (w ++ rest))
    (hw : ∀ e ∈ w, e.isDigit = true) (hne : w ≠ []) :
    ∃ row ds more, (cs = row ++ more ∨ after = true ∧ cs = '_' :: (row ++ more)) ∧
      DigitRow row ds ∧ plain? true more = some rest := by
  induction w generalizing after cs with
  | nil => exact absurd rfl hne
  | cons e w ih =>
    obtain ⟨he, hdigits⟩ := List.forall_mem_cons.mp hw
    rcases plain?_inv h with ⟨-, hplain⟩ | ⟨_, _, _, -, hplain, hnone, -⟩ |
      ⟨c, tail, _, d, hcs, hplain, hd, htail⟩
    · cases hplain
    · cases hplain
      rw [digitValue?_of_isDigit he] at hnone
      cases hnone
    obtain ⟨rfl, rfl⟩ := List.cons_eq_cons.mp hplain
    -- the row that starts with this digit, from what follows it
    have hrow : ∃ row ds more, c :: tail = row ++ more ∧ DigitRow row ds ∧
        plain? true more = some rest := by
      cases w with
      | nil => exact ⟨[c], [d], tail, rfl, .one hd, htail⟩
      | cons f w =>
        obtain ⟨row, ds, more, rfl | ⟨-, rfl⟩, hrow, hmore⟩ :=
          ih htail hdigits (List.cons_ne_nil f w)
        · exact ⟨c :: row, d :: ds, more, rfl, .next hd hrow, hmore⟩
        · exact ⟨c :: '_' :: row, d :: ds, more, rfl, .apart hd hrow, hmore⟩
    obtain ⟨row, ds, more, hstart, hrow, hmore⟩ := hrow
    rw [hstart] at hcs
    exact ⟨row, ds, more, hcs, hrow, hmore⟩

/-- The digits of a row are left, whatever is behind the row. -/
theorem plain?_row (h : DigitRow cs ds) :
    plain? after (cs ++ rest) = (plain? true rest).map (ds.map Nat.digitChar ++ ·) := by
  induction h generalizing after with
  | one hd => exact plain?_digit hd
  | next hd _ ih =>
    rw [List.cons_append, plain?_digit hd, ih, Option.map_map]
    rfl
  | apart hd hrow ih =>
    obtain ⟨e, more, _, rfl, he⟩ := hrow.exists_cons
    rw [List.cons_append, List.cons_append, plain?_digit hd, List.cons_append, plain?_underscore,
      if_pos ⟨rfl, by rw [he]; rfl⟩, ← List.cons_append, ih, Option.map_map]
    rfl

/-- A row leaves digits, whatever is behind it. -/
theorem exists_digits_of_row (h : DigitRow cs ds) : ∃ digits : List Char, digits ≠ [] ∧
    (∀ c ∈ digits, c.isDigit = true) ∧
    ∀ after rest, plain? after (cs ++ rest) = (plain? true rest).map (digits ++ ·) := by
  refine ⟨ds.map Nat.digitChar, ?_, ?_, fun after rest => plain?_row h⟩
  · cases h <;> exact List.cons_ne_nil _ _
  · intro c hc
    obtain ⟨d, hd, rfl⟩ := List.mem_map.mp hc
    have hall : ∀ d < 10, (Nat.digitChar d).isDigit = true := by decide
    exact hall d (h.lt_ten d hd)

theorem plain?_sign (hsign : IsSign sign negative) :
    plain? false (sign ++ cs) = (plain? false cs).map (sign ++ ·) := by
  cases hsign with
  | none => exact Option.map_id'.symm
  | plus => exact plain?_cons (by decide) (by decide)
  | minus => exact plain?_cons (by decide) (by decide)

theorem exists_sign_of_plain? (hsign : IsSign sign negative)
    (h : plain? false cs = some (sign ++ rest)) :
    ∃ more, cs = sign ++ more ∧ plain? false more = some rest := by
  cases hsign with
  | none => exact ⟨cs, rfl, h⟩
  | plus => exact exists_cons_of_plain? h rfl
  | minus => exact exists_cons_of_plain? h rfl

/-! ### The second round -/

theorem isSome_exponent?_iff : (exponent? cs).isSome ↔ cs = [] ∨
    ∃ mark sign negative digits, cs = mark :: (sign ++ digits) ∧ (mark = 'e' ∨ mark = 'E') ∧
      IsSign sign negative ∧ digits ≠ [] ∧ ∀ c ∈ digits, c.isDigit = true := by
  constructor
  · intro h
    match cs with
    | [] => exact .inl rfl
    | mark :: more =>
      rw [exponent?] at h
      split at h
      · rename_i hmark
        rw [Bool.or_eq_true, beq_iff_eq, beq_iff_eq] at hmark
        cases hsplit : splitSign more with
        | mk negative digits =>
        rw [hsplit] at h
        dsimp only at h
        split at h
        · cases h
        rename_i hdigits
        simp only [Bool.or_eq_true, not_or, List.isEmpty_iff, Bool.not_eq_true', Bool.not_eq_false,
          List.all_eq_true] at hdigits
        obtain ⟨sign, rfl, hsign⟩ := exists_sign_of_splitSign hsplit
        exact .inr ⟨mark, sign, negative, digits, rfl, hmark, hsign, hdigits⟩
      · cases h
  · rintro (rfl | ⟨mark, sign, negative, digits, rfl, hmark, hsign, hne, hdigits⟩)
    · rfl
    · cases digits with
      | nil => exact absurd rfl hne
      | cons c digits =>
        have hc := not_mark_of_digitValue? (digitValue?_of_isDigit (hdigits c List.mem_cons_self))
        have hmark : (mark == 'e' || mark == 'E') = true := by
          rwa [Bool.or_eq_true, beq_iff_eq, beq_iff_eq]
        rw [exponent?, if_pos hmark, splitSign_append hsign hc]
        dsimp only
        rw [if_neg]
        · rfl
        · simpa using hdigits

/-- What ends in an exponent does not start with a digit. -/
theorem not_isDigit_of_exponent? (h : (exponent? (c :: cs)).isSome) : c.isDigit = false := by
  rcases isSome_exponent?_iff.mp h with hnil | ⟨mark, _, _, _, hcons, rfl | rfl, -⟩
  · cases hnil
  · cases hcons
    rfl
  · cases hcons
    rfl

/-- Digits come from the front, up to what starts with none. -/
theorem span_digits {w : List Char} (hw : ∀ c ∈ w, c.isDigit = true) (rest : List Char)
    (hrest : ∀ c more, rest = c :: more → c.isDigit = false) :
    (w ++ rest).takeWhile Char.isDigit = w ∧ (w ++ rest).dropWhile Char.isDigit = rest := by
  rw [List.takeWhile_append_of_pos hw, List.dropWhile_append_of_pos hw]
  cases rest with
  | nil => exact ⟨List.append_nil w, rfl⟩
  | cons c more =>
    have hc : ¬ c.isDigit = true := by rw [hrest c more rfl]; exact Bool.false_ne_true
    rw [List.takeWhile_cons_of_neg hc, List.dropWhile_cons_of_neg hc, List.append_nil]
    exact ⟨rfl, rfl⟩

theorem isDigit_of_mem_takeWhile : ∀ c ∈ cs.takeWhile Char.isDigit, c.isDigit = true :=
  fun _ hc => List.mem_takeWhile_imp hc

/-- There is a number when there are digits and an exponent, whatever it is. -/
theorem isSome_number_iff {whole fraction tail : List Char} {number : Int → Float} :
    (if whole.isEmpty && fraction.isEmpty then none
      else (exponent? tail).bind fun e => some (number e)).isSome
      ↔ ¬ (whole = [] ∧ fraction = []) ∧ (exponent? tail).isSome := by
  have hnone : (whole.isEmpty && fraction.isEmpty) = true ↔ whole = [] ∧ fraction = [] := by
    rw [Bool.and_eq_true, List.isEmpty_iff, List.isEmpty_iff]
  split
  · rename_i hempty
    exact iff_of_false Bool.false_ne_true fun h => h.1 (hnone.mp hempty)
  · rename_i hdigits
    rw [and_iff_right (mt hnone.mpr hdigits)]
    cases exponent? tail <;> rfl

theorem unsignedFloat?_of_point (hrest : cs.dropWhile Char.isDigit = '.' :: rest) :
    (unsignedFloat? cs).isSome ↔
      ¬ (cs.takeWhile Char.isDigit = [] ∧ rest.takeWhile Char.isDigit = []) ∧
        (exponent? (rest.dropWhile Char.isDigit)).isSome := by
  unfold unsignedFloat?
  dsimp only
  rw [hrest]
  exact isSome_number_iff

theorem unsignedFloat?_of_no_point (hrest : ∀ more, cs.dropWhile Char.isDigit ≠ '.' :: more) :
    (unsignedFloat? cs).isSome ↔
      ¬ (cs.takeWhile Char.isDigit = [] ∧ ([] : List Char) = []) ∧
        (exponent? (cs.dropWhile Char.isDigit)).isSome := by
  unfold unsignedFloat?
  dsimp only
  split
  · exact absurd ‹_› (hrest _)
  · exact isSome_number_iff

/-- Digits with a point among or around them, or without one, and an exponent. -/
theorem isSome_unsignedFloat?_iff : (unsignedFloat? cs).isSome ↔
    ∃ whole point fraction tail, cs = whole ++ (point ++ (fraction ++ tail)) ∧
      (∀ c ∈ whole, c.isDigit = true) ∧ (∀ c ∈ fraction, c.isDigit = true) ∧
      (point = ['.'] ∨ point = [] ∧ fraction = []) ∧ ¬ (whole = [] ∧ fraction = []) ∧
      (exponent? tail).isSome := by
  constructor
  · intro h
    have hcs := List.takeWhile_append_dropWhile (p := Char.isDigit) (l := cs)
    by_cases hpoint : ∃ more, cs.dropWhile Char.isDigit = '.' :: more
    · obtain ⟨more, hrest⟩ := hpoint
      obtain ⟨hdigits, htail⟩ := (unsignedFloat?_of_point hrest).mp h
      refine ⟨_, ['.'], _, _, ?_, isDigit_of_mem_takeWhile, isDigit_of_mem_takeWhile, .inl rfl,
        hdigits, htail⟩
      rw [List.takeWhile_append_dropWhile, List.singleton_append, ← hrest, hcs]
    · obtain ⟨hdigits, htail⟩ := (unsignedFloat?_of_no_point (not_exists.mp hpoint)).mp h
      exact ⟨_, [], [], _, hcs.symm, isDigit_of_mem_takeWhile, nofun, .inr ⟨rfl, rfl⟩, hdigits,
        htail⟩
  · rintro ⟨whole, point, fraction, tail, rfl, hwhole, hfraction, hpoint, hdigits, htail⟩
    have hend : ∀ c more, tail = c :: more → c.isDigit = false := by
      rintro c more rfl
      exact not_isDigit_of_exponent? htail
    rcases hpoint with rfl | ⟨rfl, rfl⟩
    · rw [List.singleton_append]
      obtain ⟨htake, hdrop⟩ := span_digits hwhole ('.' :: (fraction ++ tail))
        fun c more h => by cases h; rfl
      obtain ⟨htake', hdrop'⟩ := span_digits hfraction tail hend
      rw [unsignedFloat?_of_point hdrop, htake, htake', hdrop']
      exact ⟨hdigits, htail⟩
    · obtain ⟨htake, hdrop⟩ := span_digits hwhole tail hend
      rw [List.nil_append, List.nil_append, unsignedFloat?_of_no_point, htake, hdrop]
      · exact ⟨hdigits, htail⟩
      · intro more hmore
        rw [hdrop] at hmore
        rw [hmore] at htail
        cases htail

theorem isSome_specialFloat?_iff {name : String} :
    (specialFloat? name).isSome ↔ name ∈ specialWords := by
  simp only [specialFloat?, specialWords, List.mem_cons, List.not_mem_nil, or_false,
    Bool.or_eq_true, beq_iff_eq]
  split
  · rename_i hinf
    exact iff_of_true rfl (hinf.imp_right .inl)
  split
  · rename_i hnan
    exact iff_of_true rfl (.inr (.inr hnan))
  · rename_i hinf hnan
    exact iff_of_false Bool.false_ne_true fun h => (or_assoc.mpr h).elim hinf hnan

/-- What is read as a float once its sign is split off. -/
theorem isSome_readFloat?_iff_plain : (readFloat? text).isSome ↔
    ∃ sign negative body, plain? false (trimBlank text) = some (sign ++ body) ∧
      IsSign sign negative ∧ splitSign (sign ++ body) = (negative, body) ∧
      (Text.IsOneOf specialWords body ∨ (unsignedFloat? body).isSome) := by
  have hread : (readFloat? text).isSome ↔ ∃ plain, plain? false (trimBlank text) = some plain ∧
      ((specialFloat? (String.ofList ((splitSign plain).2.map Char.toLower))).isSome ∨
        (unsignedFloat? (splitSign plain).2).isSome) := by
    unfold readFloat? plain?
    cases dropUnderscores? false ((trimBlank text).map asciiDigit) with
    | none => exact ⟨nofun, nofun⟩
    | some plain =>
      simp only [Option.bind_eq_bind, Option.bind_some, Option.some.injEq, exists_eq_left']
      cases specialFloat? (String.ofList ((splitSign plain).2.map Char.toLower)) with
      | some x => exact iff_of_true rfl (.inl rfl)
      | none => cases unsignedFloat? (splitSign plain).2 <;> simp
  rw [hread]
  simp only [isSome_specialFloat?_iff]
  constructor
  · rintro ⟨plain, hplain, hbody⟩
    cases hsplit : splitSign plain with
    | mk negative body =>
    rw [hsplit] at hbody
    obtain ⟨sign, rfl, hsign⟩ := exists_sign_of_splitSign hsplit
    exact ⟨sign, negative, body, hplain, hsign, hsplit, hbody⟩
  · rintro ⟨sign, negative, body, hplain, -, hsplit, hbody⟩
    exact ⟨_, hplain, by rwa [hsplit]⟩

/-! ### Both rounds -/

/-- What leaves an exponent is one. -/
theorem isExponent_of_plain? (h : plain? after cs = some plain)
    (hplain : (exponent? plain).isSome) :
    IsExponent cs := by
  rcases isSome_exponent?_iff.mp hplain with rfl | ⟨mark, sign, negative, digits, rfl, hmark,
    hsign, hne, hdigits⟩
  · rw [eq_nil_of_plain? h]
    exact .none
  · obtain ⟨more, rfl, hmore⟩ := exists_cons_of_plain? h (not_isDigit_of_exponent? hplain)
    obtain ⟨more, rfl, hrow⟩ := exists_sign_of_plain? hsign hmore
    rw [← List.append_nil digits] at hrow
    obtain ⟨row, ds, rest, rfl | ⟨hafter, -⟩, hrow, hrest⟩ := exists_row_of_plain? hrow hdigits hne
    · rw [eq_nil_of_plain? hrest, List.append_nil]
      exact .marked hmark hsign hrow
    · cases hafter

/-- An exponent leaves one. -/
theorem exists_plain?_of_isExponent (h : IsExponent cs) (after : Bool) :
    ∃ plain, plain? after cs = some plain ∧ (exponent? plain).isSome := by
  cases h with
  | none => exact ⟨[], rfl, rfl⟩
  | @marked mark sign row negative ds hmark hsign hrow =>
    obtain ⟨digits, hne, hdigits, hplain⟩ := exists_digits_of_row hrow
    have hletter : digitValue? mark = none ∧ mark ≠ '_' := by
      rcases hmark with rfl | rfl <;> decide
    have hrest := hplain false []
    rw [List.append_nil] at hrest
    refine ⟨mark :: (sign ++ (digits ++ [])), ?_, isSome_exponent?_iff.mpr (.inr
      ⟨mark, sign, negative, digits, by rw [List.append_nil], hmark, hsign, hne, hdigits⟩)⟩
    rw [plain?_cons hletter.1 hletter.2, plain?_sign hsign, hrest]
    rfl

/-- A point leaves a point. -/
theorem plain?_point : plain? after ('.' :: cs) = (plain? false cs).map ('.' :: ·) :=
  plain?_cons (by decide) (by decide)

/-- What leaves a number is one: the digits before and behind the point come from rows. -/
theorem isFloat_of_plain? (h : plain? false cs = some plain)
    (hplain : (unsignedFloat? plain).isSome) :
    IsFloat cs := by
  obtain ⟨whole, point, fraction, tail, rfl, hwhole, hfraction, hpoint, hdigits, htail⟩ :=
    isSome_unsignedFloat?_iff.mp hplain
  by_cases hne : whole = []
  · -- digits behind the point only
    subst hne
    have hne : fraction ≠ [] := fun h => hdigits ⟨rfl, h⟩
    rcases hpoint with rfl | ⟨-, rfl⟩
    · rw [List.nil_append, List.singleton_append] at h
      obtain ⟨more, rfl, hmore⟩ := exists_cons_of_plain? h rfl
      obtain ⟨row, ds, rest, rfl | ⟨hafter, -⟩, hrow, hrest⟩ :=
        exists_row_of_plain? hmore hfraction hne
      · exact .number (.fraction hrow) (isExponent_of_plain? hrest htail)
      · cases hafter
    · exact absurd rfl hne
  · obtain ⟨row, ds, rest, rfl | ⟨hafter, -⟩, hrow, hrest⟩ := exists_row_of_plain? h hwhole hne
    · rcases hpoint with rfl | ⟨rfl, rfl⟩
      · rw [List.singleton_append] at hrest
        obtain ⟨more, rfl, hmore⟩ := exists_cons_of_plain? hrest rfl
        by_cases hnone : fraction = []
        · subst hnone
          have hnumber := IsFloat.number (.ended hrow) (isExponent_of_plain? hmore htail)
          rwa [List.append_assoc] at hnumber
        · obtain ⟨row', ds', rest, rfl | ⟨hafter, -⟩, hrow', hrest⟩ :=
            exists_row_of_plain? hmore hfraction hnone
          · have hnumber := IsFloat.number (.parted hrow hrow') (isExponent_of_plain? hrest htail)
            rwa [List.append_assoc] at hnumber
          · cases hafter
      · exact .number (.whole hrow) (isExponent_of_plain? hrest htail)
    · cases hafter

/-- A mantissa leaves digits, with a point among or around them or without one. -/
theorem exists_plain?_of_isMantissa (h : IsMantissa cs) : ∃ whole point fraction,
    (∀ c ∈ whole, c.isDigit = true) ∧ (∀ c ∈ fraction, c.isDigit = true) ∧
      (point = ['.'] ∨ point = [] ∧ fraction = []) ∧ ¬ (whole = [] ∧ fraction = []) ∧
      ∀ rest, ∃ after, plain? false (cs ++ rest)
        = (plain? after rest).map fun tail => whole ++ (point ++ (fraction ++ tail)) := by
  cases h with
  | whole hrow =>
    obtain ⟨digits, hne, hdigits, hplain⟩ := exists_digits_of_row hrow
    exact ⟨digits, [], [], hdigits, nofun, .inr ⟨rfl, rfl⟩, fun h => hne h.1, fun rest =>
      ⟨true, hplain false rest⟩⟩
  | ended hrow =>
    obtain ⟨digits, hne, hdigits, hplain⟩ := exists_digits_of_row hrow
    refine ⟨digits, ['.'], [], hdigits, nofun, .inl rfl, fun h => hne h.1, fun rest =>
      ⟨false, ?_⟩⟩
    rw [List.append_assoc, hplain, List.singleton_append, plain?_point, Option.map_map]
    rfl
  | fraction hrow =>
    obtain ⟨digits, hne, hdigits, hplain⟩ := exists_digits_of_row hrow
    refine ⟨[], ['.'], digits, nofun, hdigits, .inl rfl, fun h => hne h.2, fun rest =>
      ⟨true, ?_⟩⟩
    rw [List.cons_append, plain?_point, hplain, Option.map_map]
    rfl
  | parted hrow hmore =>
    obtain ⟨digits, hne, hdigits, hplain⟩ := exists_digits_of_row hrow
    obtain ⟨digits', -, hdigits', hplain'⟩ := exists_digits_of_row hmore
    refine ⟨digits, ['.'], digits', hdigits, hdigits', .inl rfl, fun h => hne h.1, fun rest =>
      ⟨true, ?_⟩⟩
    rw [List.append_assoc, hplain, List.cons_append, plain?_point, hplain', Option.map_map,
      Option.map_map]
    rfl

/-- A number leaves one, which starts with no sign. -/
theorem exists_plain?_of_number (hmantissa : IsMantissa mantissa)
    (hexponent : IsExponent exponent) :
    ∃ c rest, plain? false (mantissa ++ exponent) = some (c :: rest) ∧ c ∉ ['_', '+', '-'] ∧
      (unsignedFloat? (c :: rest)).isSome := by
  obtain ⟨whole, point, fraction, hwhole, hfraction, hpoint, hdigits, hplain⟩ :=
    exists_plain?_of_isMantissa hmantissa
  obtain ⟨after, hrest⟩ := hplain exponent
  obtain ⟨tail, htail, hsome⟩ := exists_plain?_of_isExponent hexponent after
  rw [htail, Option.map_some] at hrest
  have hnumber := isSome_unsignedFloat?_iff.mpr
    ⟨whole, point, fraction, tail, rfl, hwhole, hfraction, hpoint, hdigits, hsome⟩
  cases whole with
  | cons c more =>
    exact ⟨c, _, hrest, not_mark_of_digitValue? (digitValue?_of_isDigit
      (hwhole c List.mem_cons_self)), hnumber⟩
  | nil =>
    rcases hpoint with rfl | ⟨-, rfl⟩
    · exact ⟨'.', _, hrest, by decide, hnumber⟩
    · exact absurd ⟨rfl, rfl⟩ hdigits

/-- **A text is read as a float** exactly when it spells one. -/
theorem isSome_readFloat?_iff : (readFloat? text).isSome ↔ SpellsFloat text := by
  rw [isSome_readFloat?_iff_plain, spellsFloat_iff]
  constructor
  · rintro ⟨sign, negative, body, hplain, hsign, -, hbody⟩
    obtain ⟨more, htext, hmore⟩ := exists_sign_of_plain? hsign hplain
    refine ⟨sign, negative, more, htext, hsign, ?_⟩
    rcases hbody with hword | hnumber
    · have hletters : ∀ c ∈ body, c.isDigit = false := fun c hc =>
        not_isDigit_of_none (of_special hword hc).1
      rw [eq_of_plain? hmore hletters]
      exact .special hword
    · exact isFloat_of_plain? hmore hnumber
  · rintro ⟨sign, negative, body, htext, hsign, hbody⟩
    rw [htext, plain?_sign hsign]
    cases hbody with
    | special hword =>
      have hletters := fun c (hc : c ∈ body) => of_special hword hc
      have hplain : plain? false body = some body := plain?_eq_self fun c hc =>
        ⟨(hletters c hc).1, fun h => (hletters c hc).2.2 (h ▸ List.mem_cons_self)⟩
      refine ⟨sign, negative, body, by rw [hplain]; rfl, hsign, ?_, .inl hword⟩
      cases body with
      | nil => exact absurd hword (by decide)
      | cons c rest => exact splitSign_append hsign (hletters c List.mem_cons_self).2.2
    | number hmantissa hexponent =>
      obtain ⟨c, rest, hplain, hc, hnumber⟩ := exists_plain?_of_number hmantissa hexponent
      exact ⟨sign, negative, c :: rest, by rw [hplain]; rfl, hsign, splitSign_append hsign hc,
        .inr hnumber⟩

end Winnow.Decimal
