/-
Winnow/Proofs/Decimal/Integers.lean

What is read as an integer.

In base ten the digits of a row are read one after another, each with the underscore
in front of it (`digitsFrom?_eq_some_iff`), so that a text is read as an integer exactly
when it spells one with no more digits than the limit (`readInteger_eq_ok_iff`).  A
text spells at most one integer (`SpellsInteger.unique`), and what an integer is printed
as spells it (`spellsInteger_toString`).
-/
import Winnow.Proofs.Decimal.Spelling

namespace Winnow.Decimal

open Winnow.Text (isBlank trimBlank digitValue?)

variable {c : Char} {cs body text sign : List Char} {d : Nat} {ds : List Nat} {n : Int}
  {negative : Bool} {count : Nat}

/-! ### Signs -/

/-- A sign is split off from what starts with none. -/
theorem splitSign_append (hsign : IsSign sign negative) (hc : c ∉ ['_', '+', '-']) :
    splitSign (sign ++ c :: cs) = (negative, c :: cs) := by
  simp only [List.mem_cons, List.not_mem_nil, or_false, not_or] at hc
  obtain ⟨-, hplus, hminus⟩ := hc
  cases hsign with
  | none =>
    rw [List.nil_append, splitSign]
    · rintro rest ⟨⟩
      exact hminus rfl
    · rintro rest ⟨⟩
      exact hplus rfl
  | plus => rfl
  | minus => rfl

/-- What a sign is split off from is the sign and the rest. -/
theorem exists_sign_of_splitSign (h : splitSign cs = (negative, body)) :
    ∃ sign, cs = sign ++ body ∧ IsSign sign negative := by
  unfold splitSign at h
  split at h <;> cases h
  · exact ⟨_, rfl, .minus⟩
  · exact ⟨_, rfl, .plus⟩
  · exact ⟨_, rfl, .none⟩

theorem not_mark_of_digitValue? (h : digitValue? c = some d) : c ∉ ['_', '+', '-'] := by
  have hmarks : ∀ mark ∈ ['_', '+', '-'], digitValue? mark = none :=
    List.forall_mem_cons.mpr ⟨rfl,
      List.forall_mem_cons.mpr ⟨rfl, List.forall_mem_singleton.mpr rfl⟩⟩
  exact fun hc => ne_of_digitValue? h (hmarks c hc) rfl

/-- A sign is split off from a row of digits. -/
theorem splitSign_row (hsign : IsSign sign negative) (hbody : DigitRow body ds) :
    splitSign (sign ++ body) = (negative, body) := by
  obtain ⟨c, rest, d, rfl, hd⟩ := hbody.exists_cons
  exact splitSign_append hsign (not_mark_of_digitValue? hd)

/-! ### Rows of digits -/

/-- In base ten no letter is a digit. -/
theorem digitIn?_ten (c : Char) : digitIn? 10 c = digitValue? c := by
  by_cases hascii : c.toNat < 0x80
  · exact Text.of_ascii (P := fun c => digitIn? 10 c = digitValue? c) (by decide) hascii
  have hletters (z : Char) (hz : z.toNat < 0x80) : ¬ c ≤ z :=
    fun hle => hascii (Nat.lt_of_le_of_lt hle hz)
  unfold digitIn?
  rw [if_neg, if_neg]
  · cases h : digitValue? c with
    | none => rfl
    | some d => rw [Option.filter_some, if_pos (decide_eq_true (digitValue?_lt_ten h))]
  · rw [Bool.and_eq_true, decide_eq_true_iff, decide_eq_true_iff]
    exact fun h => hletters 'Z' (by decide) h.2
  · rw [Bool.and_eq_true, decide_eq_true_iff, decide_eq_true_iff]
    exact fun h => hletters 'z' (by decide) h.2

/-- A base of ten is not announced. -/
theorem dropAnnouncement_ten (cs : List Char) : dropAnnouncement 10 cs = cs := by
  unfold dropAnnouncement
  split <;> rfl

/-- After a digit comes nothing, or a row of digits, perhaps behind an underscore. -/
def ContinuesRow (cs : List Char) (ds : List Nat) : Prop :=
  cs = [] ∧ ds = [] ∨ DigitRow cs ds ∨ ∃ rest, cs = '_' :: rest ∧ DigitRow rest ds

theorem digitRow_cons_iff :
    DigitRow (c :: cs) ds ↔ ∃ d es, digitValue? c = some d ∧ ContinuesRow cs es ∧ ds = d :: es := by
  constructor
  · intro h
    cases h with
    | one hd => exact ⟨_, _, hd, .inl ⟨rfl, rfl⟩, rfl⟩
    | next hd hrest => exact ⟨_, _, hd, .inr (.inl hrest), rfl⟩
    | apart hd hrest => exact ⟨_, _, hd, .inr (.inr ⟨_, rfl, hrest⟩), rfl⟩
  · rintro ⟨d, es, hd, ⟨rfl, rfl⟩ | hrest | ⟨rest, rfl, hrest⟩, rfl⟩
    · exact .one hd
    · exact .next hd hrest
    · exact .apart hd hrest

theorem continuesRow_cons_iff (hc : c ≠ '_') :
    ContinuesRow (c :: cs) ds ↔ DigitRow (c :: cs) ds := by
  refine ⟨?_, fun h => .inr (.inl h)⟩
  rintro (⟨h, -⟩ | h | ⟨rest, h, -⟩)
  · cases h
  · exact h
  · cases h
    exact absurd rfl hc

theorem continuesRow_underscore_iff : ContinuesRow ('_' :: cs) ds ↔ DigitRow cs ds := by
  refine ⟨?_, fun h => .inr (.inr ⟨cs, rfl, h⟩)⟩
  rintro (⟨h, -⟩ | h | ⟨rest, h, hrest⟩)
  · cases h
  · obtain ⟨_, _, hd, -⟩ := digitRow_cons_iff.mp h
    cases hd
  · cases h
    exact hrest

/-- Digits are read exactly from rows of them, by induction on the text: what follows a
digit is read as such a row with or without an underscore in front. -/
theorem digits?_eq_some_iff (cs : List Char) (ds : List Nat) :
    (digitsFrom? 10 cs = some ds ↔ DigitRow cs ds) ∧
      (moreDigits? 10 cs = some ds ↔ ContinuesRow cs ds) := by
  induction cs generalizing ds with
  | nil =>
    refine ⟨⟨nofun, nofun⟩, ?_⟩
    rw [moreDigits?, Option.some.injEq]
    refine ⟨fun h => .inl ⟨rfl, h.symm⟩, ?_⟩
    rintro (⟨-, rfl⟩ | h | ⟨_, h, -⟩)
    · rfl
    · cases h
    · cases h
  | cons c rest ih =>
    have hfrom : (do
        let d ← digitIn? 10 c
        let es ← moreDigits? 10 rest
        some (d :: es)) = some ds ↔ DigitRow (c :: rest) ds := by
      rw [digitIn?_ten, digitRow_cons_iff]
      simp only [Option.bind_eq_bind, Option.bind_eq_some_iff, Option.some.injEq, (ih _).2]
      exact exists_congr fun d => by
        rw [← exists_and_left]
        simp only [eq_comm]
    refine ⟨by rw [digitsFrom?]; exact hfrom, ?_⟩
    by_cases hc : c = '_'
    · rw [hc, moreDigits?, continuesRow_underscore_iff]
      exact (ih ds).1
    · rw [moreDigits?, continuesRow_cons_iff hc]
      · exact hfrom
      · exact fun h => hc h

theorem digitsFrom?_eq_some_iff : digitsFrom? 10 cs = some ds ↔ DigitRow cs ds :=
  (digits?_eq_some_iff cs ds).1

/-- The number with the given digits is the one that they are the digits of. -/
theorem ofDigits_eq (base : Nat) (ds : List Nat) :
    ofDigits base ds = Nat.ofDigits base ds.reverse := by
  rw [ofDigits, Nat.ofDigits_eq_foldr, List.foldr_reverse]
  exact congrArg (List.foldl · 0 ds) (funext fun n => funext fun d => Nat.add_comm _ _)

/-! ### Integers -/

/-- **A text is read as an integer** exactly when it spells it with no more digits than
the limit. -/
theorem readInteger_eq_ok_iff :
    readInteger 10 text = .ok n ↔ ∃ count ≤ digitLimit, SpellsInteger text n count := by
  let isInside (c : Char) : Bool := (digitIn? 10 c).isSome || c == '_'
  have hinside {cs : List Char} {ds : List Nat} (h : DigitRow cs ds) :
      ∀ c ∈ cs, isInside c = true := by
    intro c hc
    rcases h.of_mem hc with rfl | ⟨d, hd⟩
    · rfl
    · simp only [isInside, digitIn?_ten, hd, Option.isSome_some, Bool.true_or]
  constructor
  · intro h
    unfold readInteger at h
    cases hsplit : splitSign (trimBlank text) with
    | mk negative body =>
    rw [hsplit] at h
    dsimp only at h
    rw [dropAnnouncement_ten] at h
    split at h
    · cases h
    rename_i ds hdigits
    split at h
    · cases h
    rename_i hlimit
    split at h
    · cases h
    rename_i hempty
    obtain ⟨sign, htext, hsign⟩ := exists_sign_of_splitSign hsplit
    have hrest : body.dropWhile isInside = [] := by
      rw [Bool.not_eq_true', Bool.not_eq_false] at hempty
      exact List.isEmpty_iff.mp hempty
    rw [List.takeWhile_eq_self_iff.mpr (List.dropWhile_eq_nil_iff.mp hrest),
      digitsFrom?_eq_some_iff] at hdigits
    have hcount : ds.length ≤ digitLimit := by simpa [isLimited] using hlimit
    refine ⟨ds.length, hcount, spellsInteger_iff.mpr ⟨sign, negative, body, ds, htext, hsign,
      hdigits, rfl, ?_⟩⟩
    rw [← ofDigits_eq, signed]
    exact (Except.ok.inj h).symm
  · rintro ⟨count, hcount, hspells⟩
    obtain ⟨sign, negative, body, ds, htext, hsign, hbody, rfl, rfl⟩ := spellsInteger_iff.mp hspells
    unfold readInteger
    rw [htext, splitSign_row hsign hbody]
    dsimp only
    rw [dropAnnouncement_ten, List.takeWhile_eq_self_iff.mpr (hinside hbody),
      List.dropWhile_eq_nil_iff.mpr (hinside hbody), digitsFrom?_eq_some_iff.mpr hbody]
    have hlimit : ¬ (isLimited 10 && decide (ds.length > digitLimit)) = true := by
      simpa [isLimited] using hcount
    dsimp only
    rw [if_neg hlimit, if_neg (by decide), ofDigits_eq, signed]

/-- A text spells one integer at most, with one number of digits. -/
theorem SpellsInteger.unique {m : Int} {count' : Nat} (h : SpellsInteger text n count)
    (h' : SpellsInteger text m count') : n = m ∧ count = count' := by
  obtain ⟨sign, negative, body, ds, htext, hsign, hbody, rfl, rfl⟩ := spellsInteger_iff.mp h
  obtain ⟨sign', negative', body', ds', htext', hsign', hbody', rfl, rfl⟩ :=
    spellsInteger_iff.mp h'
  have hsplit := splitSign_row hsign hbody
  rw [← htext, htext', splitSign_row hsign' hbody'] at hsplit
  cases hsplit
  have hdigits := digitsFrom?_eq_some_iff.mpr hbody
  rw [digitsFrom?_eq_some_iff.mpr hbody'] at hdigits
  cases hdigits
  exact ⟨rfl, rfl⟩

/-! ### Printing -/

/-- Decimal digits in a row. -/
theorem digitRow_of_isDigit (h : ∀ c ∈ cs, c.isDigit = true) (hne : cs ≠ []) :
    DigitRow cs (cs.map fun c => c.toNat - 48) := by
  induction cs with
  | nil => exact absurd rfl hne
  | cons c rest ih =>
    obtain ⟨hc, hrest⟩ := List.forall_mem_cons.mp h
    have hd := digitValue?_of_isDigit hc
    cases rest with
    | nil => exact .one hd
    | cons e more => exact .next hd (ih hrest (List.cons_ne_nil e more))

/-- A natural number is printed as a row of digits that stands for it. -/
theorem exists_row_toDigits (n : Nat) : ∃ ds, DigitRow (Nat.toDigits 10 n) ds ∧
    ds.length = (Nat.toDigits 10 n).length ∧ Nat.ofDigits 10 ds.reverse = n := by
  refine ⟨_, digitRow_of_isDigit (fun c hc => ?_) Nat.toDigits_ne_nil, List.length_map .., ?_⟩
  · exact Nat.isDigit_of_mem_toDigits (by decide) (by decide) hc
  · rw [← ofDigits_eq, ofDigits, List.foldl_map]
    exact Nat.ofDigitChars_eq_foldl.symm.trans Nat.ofDigitChars_ten_toDigits

/-- An integer is printed as its sign and the digits of its size. -/
theorem exists_sign_toString (n : Int) : ∃ sign negative,
    (toString n).toList = sign ++ Nat.toDigits 10 n.natAbs ∧ IsSign sign negative ∧
      n = signed negative n.natAbs := by
  have hprinted : toString n = n.repr := rfl
  rw [hprinted, Int.repr_eq_if]
  split
  · refine ⟨[], false, ?_, .none, ?_⟩
    · rw [Nat.repr_eq_ofList_toDigits, String.toList_ofList, List.nil_append,
        show n.toNat = n.natAbs by omega]
    · rw [signed, if_neg Bool.false_ne_true]
      omega
  · refine ⟨['-'], true, ?_, .minus, ?_⟩
    · have hminus : "-".toList = ['-'] := by decide
      rw [String.toList_append, hminus, Nat.repr_eq_ofList_toDigits, String.toList_ofList,
        show (-n).toNat = n.natAbs by omega]
    · rw [signed, if_pos rfl]
      omega

/-- **What an integer is printed as spells it**, with as many digits as its size has. -/
theorem spellsInteger_toString (n : Int) :
    SpellsInteger (toString n).toList n (Nat.toDigits 10 n.natAbs).length := by
  obtain ⟨sign, negative, htext, hsign, hn⟩ := exists_sign_toString n
  obtain ⟨ds, hrow, hlength, hvalue⟩ := exists_row_toDigits n.natAbs
  refine ⟨sign, negative, _, ds, ⟨[], [], ?_, nofun, nofun⟩, hsign, hrow, hlength, ?_⟩
  · rw [htext, List.nil_append, List.append_nil]
  · rwa [hvalue]

end Winnow.Decimal
