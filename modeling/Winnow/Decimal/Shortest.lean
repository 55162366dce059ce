/-
Winnow/Decimal/Shortest.lean

The fewest decimal digits that identify a binary floating-point number.

A finite number is `m · 2 ^ q`.  The reals that round to it form an interval
around it, which reaches half way to either neighbour and holds its ends
exactly when `m` is even.  A decimal identifies the number when it lies in
that interval (`Binary.identifiedBy`).  Of the decimals with `n` digits only
the two next to the number can do so; `Binary.shortest?` tries `n = 1, 2, …`
and takes the nearer of the two, the even one when both are equally near.

All comparisons are between natural numbers.
-/

namespace Winnow.Decimal

/-- A power of two; one where the exponent is negative. -/
def twoTo (n : Int) : Nat := Nat.pow 2 n.toNat

/-- A power of ten; one where the exponent is negative. -/
def tenTo (n : Int) : Nat := Nat.pow 10 n.toNat

/-- A finite non-negative number `m · 2 ^ q`. -/
structure Binary where
  m : Nat
  q : Int
  /-- The neighbour below is only half as far away as the neighbour above. -/
  closeBelow : Bool
  deriving DecidableEq, Repr

/-- The number whose bits, sign apart, are given.  The exponent field must not
be all ones. -/
def Binary.ofBits (bits : UInt64) : Binary :=
  let field := ((bits >>> 52) &&& 0x7FF).toNat
  let fraction := (bits &&& 0xFFFFFFFFFFFFF).toNat
  if field = 0 then ⟨fraction, -1074, false⟩
  else ⟨twoTo 52 + fraction, (field : Int) - 1075, fraction = 0 && field > 1⟩

/-- The decimal `digits · 10 ^ exponent`. -/
structure Number where
  digits : Nat
  exponent : Int
  deriving DecidableEq, Repr

/-- Compares the decimal with `n · 2 ^ j`. -/
def Number.compareBinary (d : Number) (n : Nat) (j : Int) : Ordering :=
  compare (d.digits * tenTo d.exponent * twoTo (-j)) (n * twoTo j * tenTo (-d.exponent))

/-- Whether the decimal lies among the reals that round to the number. -/
def Binary.identifiedBy (x : Binary) (d : Number) : Bool :=
  -- Quarters of the unit in the last place: one below when the gap is narrow, else two.
  let low := if x.closeBelow then 4 * x.m - 1 else 4 * x.m - 2
  let high := 4 * x.m + 2
  let closed := x.m % 2 == 0
  let fromLow := d.compareBinary low (x.q - 2)
  let toHigh := d.compareBinary high (x.q - 2)
  (fromLow == .gt || closed && fromLow == .eq) && (toHigh == .lt || closed && toHigh == .eq)

/-- Raises `k` until `m · 2 ^ q < 10 ^ k`, at most `fuel` times. -/
def Binary.raiseScale (x : Binary) : (fuel : Nat) → Int → Int
  | 0, k => k
  | fuel + 1, k =>
    if Number.compareBinary ⟨1, k⟩ x.m x.q == .gt then k else x.raiseScale fuel (k + 1)

/-- The least `k` with `m · 2 ^ q < 10 ^ k`, for a number that is not zero. -/
def Binary.scale (x : Binary) : Int :=
  -- 30103 / 100000 exceeds the logarithm of two by little, so the start is at most two too low.
  x.raiseScale 8 (((x.m.log2 : Int) + x.q) * 30103 / 100000 - 1)

/-- The decimal next below or at the number among the multiples of `10 ^ e`. -/
def Binary.floorAt (x : Binary) (e : Int) : Number :=
  ⟨x.m * twoTo x.q * tenTo (-e) / (twoTo (-x.q) * tenTo e), e⟩

/-- The decimal among the multiples of `10 ^ e` that identifies the number: the
nearer of the two next to it, the even one of two equally near. -/
def Binary.atPlace? (x : Binary) (e : Int) : Option Number :=
  let low := x.floorAt e
  let high : Number := ⟨low.digits + 1, e⟩
  match x.identifiedBy low, x.identifiedBy high with
  | true, true =>
    -- The number against the middle of the two.
    match Number.compareBinary ⟨2 * low.digits + 1, e⟩ x.m (x.q + 1) with
    | .gt => some low
    | .lt => some high
    | .eq => some (if low.digits % 2 = 0 then low else high)
  | true, false => some low
  | false, true => some high
  | false, false => none

/-- Moves trailing zeros of the digits into the exponent. -/
def Number.stripZeros : (fuel : Nat) → Number → Number
  | 0, d => d
  | fuel + 1, d =>
    if d.digits ≠ 0 ∧ d.digits % 10 = 0 then stripZeros fuel ⟨d.digits / 10, d.exponent + 1⟩
    else d

/-- The shortest decimal that identifies a number other than zero.  Seventeen
digits always suffice. -/
def Binary.shortest? (x : Binary) : Option Number :=
  let k := x.scale
  ((List.range 17).findSome? fun (n : Nat) => x.atPlace? (k - (n + 1))).map (Number.stripZeros 20)

end Winnow.Decimal
