/-
Winnow/Proofs/Value/Numbers.lean

Numbers that are the same key.

Truth values, integers, levels and floats are compared with one another as numbers.
Every finite float is a whole multiple of the smallest one, so that all numbers can be
counted in units of its size, `2 ^ -1074` (`Amount`, `unpackedAmount?`).

A float is unpacked into a sign, a whole number and an exponent of two.  The exponent is
as small as the whole number allows (`Canonical`), so that each finite number but zero has one
such form only, and two floats are equal just if they are the same amount (`beq_iff`).  With a
whole number a float is compared by the fields of its bits, which give the same amount
(`floatIsWhole_iff`).
-/
import Mathlib
import Winnow.Value.Basic

namespace Winnow

open Float.Model (UnpackedFloat Format)
open Float.Model.UnpackedFloat (Sign unpackExponent unpackMantissa unpackSign)

/-! ### Amounts -/

/-- The whole number one in units of the smallest float. -/
def unitsOfOne : Nat := 2 ^ 1074

/-- What a number comes to, in units of the smallest float. -/
inductive Amount
  | units (n : Int)
  | infinity (positive : Bool)
  deriving DecidableEq

/-- A number with a sign. -/
def withSign : Sign → Nat → Int
  | .positive, n => n
  | .negative, n => -n

/-- What an unpacked float comes to, if it is a number. -/
def unpackedAmount? : UnpackedFloat → Option Amount
  | .notANumber => none
  | .infinity .positive => some (.infinity true)
  | .infinity .negative => some (.infinity false)
  | .zero _ => some (.units 0)
  | .finite s m e _ => some (.units (withSign s (m * 2 ^ (e + 1074).toNat)))

theorem unitsOfOne_ne_zero : (unitsOfOne : Int) ≠ 0 := by
  unfold unitsOfOne
  omega

/-! ### The fields of a float -/

theorem toNat_unpackExponent (b : BitVec Format.binary64.numBits) :
    (unpackExponent b).toNat = b.toNat / 2 ^ 52 % 2 ^ 11 := by
  simp [unpackExponent, Nat.shiftRight_eq_div_pow]

theorem toNat_unpackMantissa (b : BitVec Format.binary64.numBits) :
    (unpackMantissa b).toNat = b.toNat % 2 ^ 52 := by
  simp [unpackMantissa]

theorem toNat_unpackSign (b : BitVec Format.binary64.numBits) :
    (unpackSign b).toNat = b.toNat / 2 ^ 63 % 2 := by
  simp [unpackSign, Nat.shiftRight_eq_div_pow]

theorem toNat_one_append {w : Nat} (v : BitVec w) : (1#1 ++ v).toNat = 2 ^ w + v.toNat := by
  rw [BitVec.toNat_append, ← Nat.shiftLeft_add_eq_or_of_lt v.isLt]
  simp [Nat.shiftLeft_eq]

/-- What the fields of a word say about the float that is unpacked from it. -/
inductive Fields (b : BitVec Format.binary64.numBits) : UnpackedFloat → Prop
  | notANumber : Fields b .notANumber
  | infinity (s : Sign) : Fields b (.infinity s)
  | zero (s : Sign) : b.toNat / 2 ^ 52 % 2 ^ 11 = 0 → b.toNat % 2 ^ 52 = 0 → Fields b (.zero s)
  | subnormal {m : Nat} (h : 0 < m) : b.toNat / 2 ^ 52 % 2 ^ 11 = 0 → b.toNat % 2 ^ 52 = m →
      Fields b (.finite (Sign.ofBitVec (unpackSign b)) m (-1074) h)
  | normal {m : Nat} {e : Int} (h : 0 < m) : b.toNat / 2 ^ 52 % 2 ^ 11 ≠ 0 →
      2 ^ 52 + b.toNat % 2 ^ 52 = m → ((b.toNat / 2 ^ 52 % 2 ^ 11 : Nat) : Int) - 1075 = e →
      Fields b (.finite (Sign.ofBitVec (unpackSign b)) m e h)

theorem fields_unpack (b : BitVec Format.binary64.numBits) :
    Fields b (UnpackedFloat.unpack Format.binary64 b) := by
  have hbias : ((Format.binary64.exponentBias : Nat) : Int) = 1023 := rfl
  have hwidth : ((Format.binary64.mantissaBitsWithoutImplicit : Nat) : Int) = 52 := rfl
  have hexponent := toNat_unpackExponent b
  have hmantissa := toNat_unpackMantissa b
  rw [UnpackedFloat.unpack]
  split
  · split
    · exact .infinity _
    · exact .notANumber
  · split
    · rename_i hzero
      have hfield : (unpackExponent b).toNat = 0 := by rw [hzero]; rfl
      split
      · rename_i hnone
        have hfraction : (unpackMantissa b).toNat = 0 := by rw [hnone]; rfl
        exact .zero _ (hexponent.symm.trans hfield) (hmantissa.symm.trans hfraction)
      · have he : ((unpackExponent b).toNat : Int) - (Format.binary64.exponentBias
            + Format.binary64.mantissaBitsWithoutImplicit) + 1 = -1074 := by
          rw [hfield, hbias, hwidth]
          omega
        rw [he]
        exact .subnormal _ (hexponent.symm.trans hfield) hmantissa.symm
    · rename_i hzero
      have hfield : (unpackExponent b).toNat ≠ 0 := fun h => hzero (BitVec.eq_of_toNat_eq h)
      rw [hexponent] at hfield
      refine .normal _ hfield ?_ ?_
      · rw [toNat_one_append, hmantissa]
      · rw [hexponent, hbias, hwidth]
        omega

/-! ### One form for each number -/

/-- The exponent of an unpacked float is as small as its whole number allows. -/
def Canonical : UnpackedFloat → Prop
  | .finite _ m e _ => m < 2 ^ 53 ∧ -1074 ≤ e ∧ (-1074 < e → 2 ^ 52 ≤ m)
  | _ => True

theorem canonical_unpack (x : Float) : Canonical x.toModel.unpack := by
  have hfields : Fields _ x.toModel.unpack := fields_unpack x.toModel.toBits.toBitVec
  generalize x.toModel.unpack = u at hfields
  generalize x.toModel.toBits.toBitVec = b at hfields
  have hfraction : b.toNat % 2 ^ 52 < 2 ^ 52 := Nat.mod_lt _ (by decide)
  cases hfields with
  | notANumber => trivial
  | infinity s => trivial
  | zero s => trivial
  | subnormal => exact ⟨by omega, by omega, by omega⟩
  | normal => exact ⟨by omega, by omega, by omega⟩

variable {m n : Nat} {e f : Int} {s : Sign}

/-- A greater exponent makes a greater number, or the whole number could have been
greater. -/
theorem lt_of_exponent_lt (hm : m < 2 ^ 53) (he : -1074 ≤ e) (hn : 2 ^ 52 ≤ n) (hlt : e < f) :
    m * 2 ^ (e + 1074).toNat < n * 2 ^ (f + 1074).toNat := by
  have hle : (e + 1074).toNat + 1 ≤ (f + 1074).toNat := by omega
  calc m * 2 ^ (e + 1074).toNat
      < 2 ^ 53 * 2 ^ (e + 1074).toNat := Nat.mul_lt_mul_of_pos_right hm (Nat.two_pow_pos _)
    _ = 2 ^ 52 * 2 ^ ((e + 1074).toNat + 1) := by rw [Nat.pow_succ]; omega
    _ ≤ n * 2 ^ (f + 1074).toNat := Nat.mul_le_mul hn (Nat.pow_le_pow_right Nat.two_pos hle)

theorem units_inj (hm : m < 2 ^ 53 ∧ -1074 ≤ e ∧ (-1074 < e → 2 ^ 52 ≤ m))
    (hn : n < 2 ^ 53 ∧ -1074 ≤ f ∧ (-1074 < f → 2 ^ 52 ≤ n)) :
    m * 2 ^ (e + 1074).toNat = n * 2 ^ (f + 1074).toNat ↔ e = f ∧ m = n := by
  obtain ⟨hmLt, heLe, hm⟩ := hm
  obtain ⟨hnLt, hfLe, hn⟩ := hn
  constructor
  · intro h
    rcases Int.lt_trichotomy e f with hlt | rfl | hlt
    · exact absurd h (Nat.ne_of_lt (lt_of_exponent_lt hmLt heLe (hn (by omega)) hlt))
    · exact ⟨rfl, Nat.eq_of_mul_eq_mul_right (Nat.two_pow_pos _) h⟩
    · exact absurd h.symm (Nat.ne_of_lt (lt_of_exponent_lt hnLt hfLe (hm (by omega)) hlt))
  · rintro ⟨rfl, rfl⟩
    rfl

theorem withSign_eq_zero_iff : withSign s n = 0 ↔ n = 0 := by
  cases s with
  | positive => exact Int.natCast_eq_zero
  | negative => exact Int.neg_eq_zero.trans Int.natCast_eq_zero

theorem withSign_inj {s' : Sign} (hm : 0 < m) :
    withSign s m = withSign s' n ↔ s = s' ∧ m = n := by
  cases s <;> cases s' <;> simp [withSign] <;> omega

theorem amount_finite_eq_iff {s' : Sign} {hm : 0 < m} {hn : 0 < n}
    (hu : Canonical (.finite s m e hm)) (hv : Canonical (.finite s' n f hn)) :
    unpackedAmount? (.finite s m e hm) = unpackedAmount? (.finite s' n f hn)
      ↔ s = s' ∧ e = f ∧ m = n := by
  have hpos : 0 < m * 2 ^ (e + 1074).toNat := Nat.mul_pos hm (Nat.two_pow_pos _)
  rw [unpackedAmount?, unpackedAmount?, Option.some.injEq, Amount.units.injEq, withSign_inj hpos,
    units_inj hu hv]

theorem amount_finite_ne_zero (hm : 0 < m) :
    unpackedAmount? (.finite s m e hm) ≠ some (.units 0) := by
  have hpos : 0 < m * 2 ^ (e + 1074).toNat := Nat.mul_pos hm (Nat.two_pow_pos _)
  rw [unpackedAmount?, Ne, Option.some.injEq, Amount.units.injEq, withSign_eq_zero_iff]
  exact Nat.ne_of_gt hpos

/-- Only the two zeros come to one amount. -/
theorem eq_or_zeros_of_amount_eq {u v : UnpackedFloat} (hu : Canonical u) (hv : Canonical v)
    (hnan : u ≠ .notANumber) (h : unpackedAmount? u = unpackedAmount? v) :
    u = v ∨ ∃ s s', u = .zero s ∧ v = .zero s' := by
  cases u with
  | notANumber => exact absurd rfl hnan
  | infinity s =>
    cases v with
    | infinity s' => cases s <;> cases s' <;> first | exact .inl rfl | cases h
    | _ => cases s <;> cases h
  | zero s =>
    cases v with
    | notANumber => cases h
    | infinity s' => cases s' <;> cases h
    | zero s' => exact .inr ⟨s, s', rfl, rfl⟩
    | finite s' n f hn => exact absurd h.symm (amount_finite_ne_zero hn)
  | finite s m e hm =>
    cases v with
    | notANumber => cases h
    | infinity s' => cases s' <;> cases h
    | zero s' => exact absurd h (amount_finite_ne_zero hm)
    | finite s' n f hn =>
      obtain ⟨rfl, rfl, rfl⟩ := (amount_finite_eq_iff hu hv).mp h
      exact .inl rfl

/-- **Equal floats are the numbers that come to the same amount.** -/
theorem beq_iff {u v : UnpackedFloat} (hu : Canonical u) (hv : Canonical v) :
    u.beq v = true ↔ u ≠ .notANumber ∧ unpackedAmount? u = unpackedAmount? v := by
  rw [UnpackedFloat.beq_iff_ne_notANumber_and_eq]
  constructor
  · rintro ⟨hnan, -, rfl | ⟨rfl, rfl⟩ | ⟨rfl, rfl⟩⟩ <;> exact ⟨hnan, rfl⟩
  · rintro ⟨hnan, h⟩
    rcases eq_or_zeros_of_amount_eq hu hv hnan h with rfl | ⟨s, s', rfl, rfl⟩
    · exact ⟨hnan, hnan, .inl rfl⟩
    · -- the two zeros are equal, whatever their signs
      refine ⟨nofun, nofun, ?_⟩
      cases s <;> cases s'
      · exact .inl rfl
      · exact .inr (.inr ⟨rfl, rfl⟩)
      · exact .inr (.inl ⟨rfl, rfl⟩)
      · exact .inl rfl

/-! ### Floats -/

theorem exists_unpackedAmount {x : Float} (hx : x.isNaN = false) :
    ∃ a, unpackedAmount? x.toModel.unpack = some a := by
  have hnan : x.toModel.unpack.isNaN = false := hx
  cases hu : x.toModel.unpack with
  | notANumber =>
    rw [hu] at hnan
    cases hnan
  | infinity s => cases s <;> exact ⟨_, rfl⟩
  | zero s => exact ⟨_, rfl⟩
  | finite s m e hm => exact ⟨_, rfl⟩

theorem float_beq_iff {x y : Float} {a b : Amount} (ha : unpackedAmount? x.toModel.unpack = some a)
    (hb : unpackedAmount? y.toModel.unpack = some b) : (x == y) = true ↔ a = b := by
  have hx : x.toModel.unpack ≠ .notANumber := by
    intro hnan
    rw [hnan] at ha
    cases ha
  have h : (x == y) = true ↔ _ := beq_iff (canonical_unpack x) (canonical_unpack y)
  rw [h, and_iff_right hx, ha, hb, Option.some.injEq]

theorem toNat_field (bits : UInt64) :
    (((bits &&& 0x7FFFFFFFFFFFFFFF) >>> 52) &&& 0x7FF).toNat = bits.toNat / 2 ^ 52 % 2 ^ 11 := by
  have hmask : (0x7FFFFFFFFFFFFFFF : UInt64).toNat = 2 ^ 63 - 1 := rfl
  have hfield : (0x7FF : UInt64).toNat = 2 ^ 11 - 1 := rfl
  have hshift : (52 : UInt64).toNat % 64 = 52 := rfl
  rw [UInt64.toNat_and, UInt64.toNat_shiftRight, UInt64.toNat_and, hmask, hfield, hshift,
    Nat.and_two_pow_sub_one_eq_mod, Nat.and_two_pow_sub_one_eq_mod, Nat.shiftRight_eq_div_pow]
  omega

theorem toNat_fraction (bits : UInt64) :
    ((bits &&& 0x7FFFFFFFFFFFFFFF) &&& 0xFFFFFFFFFFFFF).toNat = bits.toNat % 2 ^ 52 := by
  have hmask : (0x7FFFFFFFFFFFFFFF : UInt64).toNat = 2 ^ 63 - 1 := rfl
  have hfraction : (0xFFFFFFFFFFFFF : UInt64).toNat = 2 ^ 52 - 1 := rfl
  rw [UInt64.toNat_and, UInt64.toNat_and, hmask, hfraction, Nat.and_two_pow_sub_one_eq_mod,
    Nat.and_two_pow_sub_one_eq_mod]
  omega

theorem sign_eq (bits : UInt64) :
    Sign.ofBitVec (@unpackSign .binary64 bits.toBitVec)
      = if bits >>> 63 == 1 then .negative else .positive := by
  have hshift : (63 : UInt64).toNat % 64 = 63 := rfl
  have hlt : bits.toNat / 2 ^ 63 < 2 := Nat.div_lt_of_lt_mul bits.toNat_lt
  have hbit : (bits >>> 63).toNat = bits.toNat / 2 ^ 63 := by
    rw [UInt64.toNat_shiftRight, hshift, Nat.shiftRight_eq_div_pow]
  have hsign : (@unpackSign .binary64 bits.toBitVec).toNat = (bits >>> 63).toNat := by
    rw [toNat_unpackSign, hbit]
    exact Nat.mod_eq_of_lt hlt
  unfold Sign.ofBitVec
  rcases Nat.le_one_iff_eq_zero_or_eq_one.mp (Nat.le_of_lt_succ hlt) with h | h
  · have hzero : @unpackSign .binary64 bits.toBitVec = 0#1 :=
      BitVec.eq_of_toNat_eq (hsign.trans (hbit.trans h))
    have hnot : ¬(bits >>> 63 == 1) = true := by
      rw [beq_iff_eq, ← UInt64.toNat_inj, hbit, h]
      exact nofun
    rw [if_pos hzero, if_neg hnot]
  · have hone : (bits >>> 63 == 1) = true := by
      rw [beq_iff_eq, ← UInt64.toNat_inj, hbit, h]
      rfl
    have hnot : @unpackSign .binary64 bits.toBitVec ≠ 0#1 := by
      intro heq
      rw [hbit, h, heq] at hsign
      exact absurd hsign (by decide)
    rw [if_neg hnot, if_pos hone]

theorem withSign_mul (s : Sign) (m k : Nat) : withSign s m * k = withSign s (m * k) := by
  cases s with
  | positive => exact (Int.natCast_mul m k).symm
  | negative => rw [withSign, withSign, Int.neg_mul, Int.natCast_mul]

/-- Two numbers are compared in steps of a power of two just as in smaller steps. -/
theorem scaled_eq_iff {a n q : Int} {k : Nat} (hq : -(k : Int) ≤ q) :
    a * Decimal.twoTo q = n * Decimal.twoTo (-q)
      ↔ a * (2 ^ (q + k).toNat : Nat) = n * (2 ^ k : Nat) := by
  have hpos (j : Nat) : ((2 ^ j : Nat) : Int) ≠ 0 :=
    Int.natCast_ne_zero.mpr (Nat.ne_of_gt (Nat.two_pow_pos j))
  show a * (2 ^ q.toNat : Nat) = n * (2 ^ (-q).toNat : Nat)
    ↔ a * (2 ^ (q + k).toNat : Nat) = n * (2 ^ k : Nat)
  rcases Int.le_total 0 q with h | h
  · have hzero : (-q).toNat = 0 := by omega
    have hadd : (q + k).toNat = q.toNat + k := by omega
    rw [hzero, hadd, Nat.pow_zero, Int.natCast_one, Int.mul_one, Nat.pow_add, Int.natCast_mul,
      ← Int.mul_assoc, Int.mul_eq_mul_right_iff (hpos k)]
  · have hzero : q.toNat = 0 := by omega
    have hadd : 2 ^ k = 2 ^ (-q).toNat * 2 ^ (q + k).toNat := by
      rw [← Nat.pow_add]
      congr 1
      omega
    rw [hzero, Nat.pow_zero, Int.natCast_one, Int.mul_one, hadd, Int.natCast_mul,
      ← Int.mul_assoc, Int.mul_eq_mul_right_iff (hpos _)]

/-- A float that is taken apart by the fields of its bits is compared with a whole number by
what it comes to. -/
theorem compareFloat_eq_iff {x : Float} {c : Bool}
    (hsize : Decimal.Binary.ofBits (x.toBits &&& 0x7FFFFFFFFFFFFFFF) = ⟨m, e, c⟩)
    (he : -1074 ≤ e) {n : Int} : Scalar.compareFloat x n = .eq
      ↔ withSign (Sign.ofBitVec (@unpackSign .binary64 x.toBits.toBitVec))
          (m * 2 ^ (e + 1074).toNat) = n * unitsOfOne := by
  have hsigned : (if x.toBits >>> 63 == 1 then -(m : Int) else m)
      = withSign (Sign.ofBitVec (@unpackSign .binary64 x.toBits.toBitVec)) m := by
    rw [sign_eq]
    split <;> rfl
  unfold Scalar.compareFloat
  dsimp only
  rw [hsize]
  dsimp only
  have hleast : ((1074 : Nat) : Int) = 1074 := rfl
  rw [hsigned, Int.compare_eq_eq, scaled_eq_iff (k := 1074) he, withSign_mul, unitsOfOne, hleast]

theorem ofBits_subnormal (bits : UInt64) (hzero : bits.toNat / 2 ^ 52 % 2 ^ 11 = 0) :
    Decimal.Binary.ofBits (bits &&& 0x7FFFFFFFFFFFFFFF)
      = ⟨bits.toNat % 2 ^ 52, -1074, false⟩ := by
  unfold Decimal.Binary.ofBits
  dsimp only
  rw [toNat_field, toNat_fraction, if_pos hzero]

theorem ofBits_normal (bits : UInt64) (hne : bits.toNat / 2 ^ 52 % 2 ^ 11 ≠ 0) :
    ∃ c, Decimal.Binary.ofBits (bits &&& 0x7FFFFFFFFFFFFFFF)
      = ⟨2 ^ 52 + bits.toNat % 2 ^ 52, ((bits.toNat / 2 ^ 52 % 2 ^ 11 : Nat) : Int) - 1075, c⟩ := by
  unfold Decimal.Binary.ofBits
  dsimp only
  rw [toNat_field, toNat_fraction, if_neg hne]
  exact ⟨_, rfl⟩

/-- **A float is a whole number** just if the two come to the same amount. -/
theorem floatIsWhole_iff {x : Float} (hx : x.isNaN = false) {n : Int} :
    Scalar.floatIsWhole x n = true
      ↔ unpackedAmount? x.toModel.unpack = some (.units (n * unitsOfOne)) := by
  have hfields : Fields x.toBits.toBitVec x.toModel.unpack :=
    fields_unpack x.toModel.toBits.toBitVec
  have hnan : x.toModel.unpack.isNaN = false := hx
  have hwhole : Scalar.floatIsWhole x n = true
      ↔ x.toModel.unpack.isInf = false ∧ Scalar.compareFloat x n = .eq := by
    unfold Scalar.floatIsWhole
    rw [Bool.and_eq_true, Bool.not_eq_true', beq_iff_eq]
    exact Iff.rfl
  rw [hwhole]
  generalize x.toModel.unpack = u at hfields hnan
  cases hfields with
  | notANumber => cases hnan
  | infinity s =>
    refine iff_of_false (fun h => Bool.noConfusion h.1) fun h => ?_
    cases s <;> cases h
  | zero s hzero hnone =>
    have hsize := ofBits_subnormal x.toBits hzero
    rw [show x.toBits.toNat % 2 ^ 52 = 0 from hnone] at hsize
    refine (and_iff_right rfl).trans ((compareFloat_eq_iff hsize (Int.le_refl _)).trans ?_)
    rw [Nat.zero_mul, withSign_eq_zero_iff.mpr rfl, unpackedAmount?, Option.some.injEq,
      Amount.units.injEq]
  | subnormal hm hzero hrest =>
    have hsize := ofBits_subnormal x.toBits hzero
    rw [show x.toBits.toNat % 2 ^ 52 = _ from hrest] at hsize
    refine (and_iff_right rfl).trans ((compareFloat_eq_iff hsize (Int.le_refl _)).trans ?_)
    rw [unpackedAmount?, Option.some.injEq, Amount.units.injEq]
  | normal hm hne hrest he =>
    obtain ⟨c, hsize⟩ := ofBits_normal x.toBits hne
    rw [show 2 ^ 52 + x.toBits.toNat % 2 ^ 52 = _ from hrest,
      show ((x.toBits.toNat / 2 ^ 52 % 2 ^ 11 : Nat) : Int) - 1075 = _ from he] at hsize
    refine (and_iff_right rfl).trans ((compareFloat_eq_iff hsize (by omega)).trans ?_)
    rw [unpackedAmount?, Option.some.injEq, Amount.units.injEq]

end Winnow
