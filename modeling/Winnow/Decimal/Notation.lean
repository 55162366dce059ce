/-
Winnow/Decimal/Notation.lean

How a floating-point number is written: with the fewest digits that identify
it, in positions when the leading digit stands for a power of ten from
`10 ^ -4` to `10 ^ 15`, and otherwise with a signed exponent of at least two
digits.  A whole number in positions keeps one zero after the point, zero
keeps its sign, and the special values are `inf`, `-inf` and `nan`.
-/
import Winnow.Decimal.Shortest

namespace Winnow.Decimal

/-- The powers of ten of a leading digit that is written in positions. -/
def isPositional (e : Int) : Bool := -4 ≤ e && e < 16

/-- A run of zeros. -/
def zeros (n : Nat) : String := String.ofList (List.replicate n '0')

/-- An exponent: its sign and at least two digits. -/
def exponentText (e : Int) : String :=
  let digits := toString e.natAbs
  let padded := if digits.length < 2 then "0" ++ digits else digits
  (if e < 0 then "-" else "+") ++ padded

/-- A positive decimal without trailing zeros. -/
def Number.text (d : Number) : String :=
  let digits := toString d.digits
  let count := digits.length
  -- The power of ten of the leading digit.
  let lead := d.exponent + count - 1
  if isPositional lead then
    if 0 ≤ d.exponent then digits ++ zeros d.exponent.toNat ++ ".0"
    else if 0 ≤ lead then
      let whole := (lead + 1).toNat
      String.ofList (digits.toList.take whole) ++ "." ++ String.ofList (digits.toList.drop whole)
    else "0." ++ zeros (-lead - 1).toNat ++ digits
  else
    let point := if count = 1 then "" else "."
    String.ofList (digits.toList.take 1) ++ point ++ String.ofList (digits.toList.drop 1)
      ++ "e" ++ exponentText lead

/-- What is no number. -/
def nanText : String := "nan"

/-- A floating-point number. -/
def floatText (x : Float) : String :=
  if x.isNaN then nanText
  else
    let bits := x.toBits
    let sign := if bits >>> 63 == 1 then "-" else ""
    if x.isInf then sign ++ "inf"
    else
      let size := Binary.ofBits (bits &&& 0x7FFFFFFFFFFFFFFF)
      if size.m = 0 then sign ++ "0.0"
      else sign ++ ((size.shortest?.map Number.text).getD "0.0")

end Winnow.Decimal
