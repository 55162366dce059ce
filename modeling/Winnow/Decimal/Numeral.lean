/-
Winnow/Decimal/Numeral.lean

Numbers in text.

An integer is an optional sign and digits of its base, with single underscores
allowed between digits; white space around it does not count.  The decimal
digits of every script are digits.  In bases 2, 8 and 16 the digits may follow
a zero and the letter of the base.  More than `digitLimit` digits, leading
zeros included, are refused in every base that is not a power of two.

A floating-point number is an optional sign and either one of the words `inf`,
`infinity` and `nan` in any case, or digits with at most one point among or
around them and an optional exponent.  Underscores may stand between digits.
-/
import Winnow.Text.Blank
import Winnow.Text.Digit

namespace Winnow.Decimal

open Winnow.Text (trimBlank digitValue?)

/-- The most digits of an integer that are read in a base that is not a power
of two. -/
def digitLimit : Nat := 4300

/-- Why a text is no integer. -/
inductive IntegerFault
  | malformed
  | tooLong (count : Nat)
  deriving DecidableEq, Repr

/-! ### Characters -/

/-- The value of a digit or letter below the base. -/
def digitIn? (base : Nat) (c : Char) : Option Nat :=
  let value? :=
    if 'a' ≤ c && c ≤ 'z' then some (c.toNat - 87)
    else if 'A' ≤ c && c ≤ 'Z' then some (c.toNat - 55)
    else digitValue? c
  value?.filter (· < base)

/-- A digit of any script as the ASCII digit of its value. -/
def asciiDigit (c : Char) : Char := ((digitValue? c).map Nat.digitChar).getD c

/-- Splits off a sign; `true` stands for minus. -/
def splitSign : List Char → Bool × List Char
  | '-' :: cs => (true, cs)
  | '+' :: cs => (false, cs)
  | cs => (false, cs)

/-! ### Integers -/

mutual
/-- The digits of a text that starts with one. -/
def digitsFrom? (base : Nat) : List Char → Option (List Nat)
  | [] => none
  | c :: cs => do
    let d ← digitIn? base c
    let ds ← moreDigits? base cs
    some (d :: ds)

/-- The digits after a digit: none at the end, otherwise a digit comes next,
perhaps behind an underscore. -/
def moreDigits? (base : Nat) : List Char → Option (List Nat)
  | [] => some []
  | '_' :: cs => digitsFrom? base cs
  | c :: cs => do
    let d ← digitIn? base c
    let ds ← moreDigits? base cs
    some (d :: ds)
end

/-- The number with the given digits, the highest first. -/
def ofDigits (base : Nat) (digits : List Nat) : Nat :=
  digits.foldl (fun n d => base * n + d) 0

/-- Whether a letter behind a zero announces the base. -/
def announces (base : Nat) (c : Char) : Bool :=
  match base with
  | 2 => c == 'b' || c == 'B'
  | 8 => c == 'o' || c == 'O'
  | 16 => c == 'x' || c == 'X'
  | _ => false

/-- Drops the announcement of a base and one underscore behind it. -/
def dropAnnouncement (base : Nat) : List Char → List Char
  | '0' :: c :: cs =>
    if announces base c then match cs with
      | '_' :: cs => cs
      | cs => cs
    else '0' :: c :: cs
  | cs => cs

/-- Whether the number of digits is limited. -/
def isLimited (base : Nat) : Bool :=
  !(base == 2 || base == 4 || base == 8 || base == 16 || base == 32)

/-- Reads an integer in the given base. -/
def readInteger (base : Nat) (text : List Char) : Except IntegerFault Int :=
  let (negative, signless) := splitSign (trimBlank text)
  let body := dropAnnouncement base signless
  let isInside (c : Char) : Bool := (digitIn? base c).isSome || c == '_'
  match digitsFrom? base (body.takeWhile isInside) with
  | none => .error .malformed
  | some digits =>
    if isLimited base && digits.length > digitLimit then .error (.tooLong digits.length)
    else if !(body.dropWhile isInside).isEmpty then .error .malformed
    else
      let n : Int := ofDigits base digits
      .ok (if negative then -n else n)

/-! ### Floating-point numbers -/

/-- Drops the underscores of a text in which each stands between two digits. -/
def dropUnderscores? (afterDigit : Bool) : List Char → Option (List Char)
  | [] => some []
  | '_' :: c :: cs => do
    guard (afterDigit && c.isDigit)
    let rest ← dropUnderscores? true cs
    some (c :: rest)
  | ['_'] => none
  | c :: cs => do
    let rest ← dropUnderscores? c.isDigit cs
    some (c :: rest)

/-- The exponent part: empty, or the mark, an optional sign and digits. -/
def exponent? : List Char → Option Int
  | [] => some 0
  | c :: cs =>
    if c == 'e' || c == 'E' then
      let (negative, digits) := splitSign cs
      if digits.isEmpty || !digits.all Char.isDigit then none
      else
        let n : Int := ofDigits 10 (digits.map fun d => d.toNat - 48)
        some (if negative then -n else n)
    else none

/-- The float next to `digits · 10 ^ exponent`.  A value outside the range of
floats is decided by the place of its leading digit. -/
def floatOfDecimal (digits : Nat) (exponent : Int) : Float :=
  let lead := exponent + (toString digits).length
  if digits = 0 || lead < -400 then 0.0
  else if lead > 400 then 1.0 / 0.0
  else Float.ofScientific digits (exponent < 0) exponent.natAbs

/-- Digits with a point among or around them, and an exponent. -/
def unsignedFloat? (cs : List Char) : Option Float :=
  let whole := cs.takeWhile Char.isDigit
  let rest := cs.dropWhile Char.isDigit
  let (fraction, tail) := match rest with
    | '.' :: more => (more.takeWhile Char.isDigit, more.dropWhile Char.isDigit)
    | _ => ([], rest)
  if whole.isEmpty && fraction.isEmpty then none
  else do
    let e ← exponent? tail
    let digits := ofDigits 10 ((whole ++ fraction).map fun d => d.toNat - 48)
    some (floatOfDecimal digits (e - fraction.length))

/-- The special values, by their names in lower case. -/
def specialFloat? (name : String) : Option Float :=
  if name == "inf" || name == "infinity" then some (1.0 / 0.0)
  else if name == "nan" then some (0.0 / 0.0)
  else none

/-- Reads a floating-point number. -/
def readFloat? (text : List Char) : Option Float := do
  let plain ← dropUnderscores? false ((trimBlank text).map asciiDigit)
  let (negative, body) := splitSign plain
  let size ← match specialFloat? (String.ofList (body.map Char.toLower)) with
    | some x => some x
    | none => unsignedFloat? body
  some (if negative then -size else size)

end Winnow.Decimal
