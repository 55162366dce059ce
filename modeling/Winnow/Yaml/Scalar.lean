/-
Winnow/Yaml/Scalar.lean

The values of scalars with a type.

Numbers may hold underscores anywhere.  An integer has a base by its
beginning: two behind `0b`, sixteen behind `0x`, eight behind another zero;
parts between colons are digits of base sixty, of integers and of
floating-point numbers.  Bytes are written in base sixty-four, and characters
that are no digits of it are passed over.
-/
import Winnow.Yaml.Fault
import Winnow.Text.Case
import Winnow.Text.Split
import Winnow.Decimal.Numeral
import Winnow.Value.Basic

namespace Winnow.Yaml

open Winnow.Decimal (readInteger readFloat?)

/-! ### Integers -/

/-- Reads digits of a base. -/
def integerIn (base : Nat) (text : List Char) : Except Fault Int :=
  match readInteger base text with
  | .ok n => .ok n
  | .error .malformed => .error (.badInteger base (String.ofList text))
  | .error (.tooLong count) => .error (.longInteger count)

/-- Reads an integer without its sign. -/
def unsignedInteger (text : List Char) : Except Fault Int :=
  match text with
  | [] => .error .emptyNumber
  | ['0'] => .ok 0
  | '0' :: 'b' :: digits => integerIn 2 digits
  | '0' :: 'x' :: digits => integerIn 16 digits
  | '0' :: _ => integerIn 8 text
  | _ =>
    if text.contains ':' then do
      let parts ← (Text.splitAt ':' text).mapM (integerIn 10)
      .ok (parts.foldl (fun n d => 60 * n + d) 0)
    else integerIn 10 text

/-- Splits off a sign; `true` stands for minus. -/
def splitSign (text : List Char) : Bool × List Char := Decimal.splitSign text

/-- Reads an integer. -/
def readInt (text : String) : Except Fault Int := do
  let body := text.toList.filter (· != '_')
  if body.isEmpty then .error .emptyNumber
  else
    let (negative, size) := splitSign body
    let n ← unsignedInteger size
    .ok (if negative then -n else n)

/-! ### Floating-point numbers -/

/-- Reads a part of a floating-point number. -/
def floatPart (text : List Char) : Except Fault Float :=
  match readFloat? text with
  | some x => .ok x
  | none => .error (.badFloat (String.ofList text))

/-- The float next to a natural number, which must not be too large for one. -/
def floatOfNat (n : Nat) : Except Fault Float :=
  let x := Float.ofNat n
  if x.isInf then .error .hugeFloat else .ok x

/-- The number with the given digits in base sixty, the lowest first, where the
first of them counts `base`.  They are added to a sum. -/
def addSixties (sum : Float) (base : Nat) : List Float → Except Fault Float
  | [] => .ok sum
  | d :: rest => do
    let unit ← floatOfNat base
    addSixties (sum + d * unit) (60 * base) rest

/-- Reads a floating-point number without its sign. -/
def unsignedFloat (text : List Char) : Except Fault Float :=
  if text = ".inf".toList then .ok (1.0 / 0.0)
  else if text.contains ':' then do
    let parts ← (Text.splitAt ':' text).mapM floatPart
    addSixties 0.0 1 parts.reverse
  else floatPart text

/-- The plain word for no number. -/
def nanWord : List Char := ".nan".toList

/-- Reads a floating-point number.  What is no number has the given mark, unless
it is the plain word for that. -/
def readFloat (mark : Nat) (text : String) : Except Fault Scalar := do
  let body := (Text.lower (String.ofList (text.toList.filter (· != '_')))).toList
  if body.isEmpty then .error .emptyNumber
  else
    let (negative, size) := splitSign body
    if size = nanWord then .ok (.nan Scalar.commonMark)
    else
      let x ← unsignedFloat size
      .ok (.ofFloat mark (if negative then -x else x))

/-! ### Truth values -/

/-- The words for truth values. -/
def truthWords : List (String × Bool) :=
  [("yes", true), ("no", false), ("true", true), ("false", false), ("on", true), ("off", false)]

/-- Reads a truth value, in any case. -/
def readTruth (text : String) : Except Fault Bool :=
  let word := Text.lower text
  match truthWords.lookup word with
  | some b => .ok b
  | none => .error (.badTruth word)

/-! ### Bytes -/

/-- The value of a digit of base sixty-four. -/
def digitOf64? (c : Char) : Option Nat :=
  if 'A' ≤ c && c ≤ 'Z' then some (c.toNat - 65)
  else if 'a' ≤ c && c ≤ 'z' then some (c.toNat - 71)
  else if c.isDigit then some (c.toNat + 4)
  else if c = '+' then some 62
  else if c = '/' then some 63
  else none

/-- The bytes of digits of base sixty-four, four for three bytes.  `place` is
the place within the four, `left` what is left of the digit before, and
`padding` how many equals signs have been met since.  Equals signs at the third
place or behind it end the text when the four are complete. -/
def bytesOf64 (place left padding : Nat) : List Char → Option (List UInt8)
  | [] => if place = 0 then some [] else none
  | c :: cs =>
    if c = '=' then
      if 2 ≤ place && 4 ≤ place + padding + 1 then some []
      else bytesOf64 place left (if 2 ≤ place then padding + 1 else padding) cs
    else match digitOf64? c with
      | none => bytesOf64 place left padding cs
      | some d => match place with
        | 0 => bytesOf64 1 d 0 cs
        | 1 => (bytesOf64 2 (d % 16) 0 cs).map ((left * 4 + d / 16).toUInt8 :: ·)
        | 2 => (bytesOf64 3 (d % 4) 0 cs).map ((left * 16 + d / 4).toUInt8 :: ·)
        | _ => (bytesOf64 0 0 0 cs).map ((left * 64 + d).toUInt8 :: ·)

/-- Reads bytes. -/
def readBytes (text : String) : Except Fault (List UInt8) :=
  if text.toList.any fun c => 0x80 ≤ c.toNat then .error .malformed
  else match bytesOf64 0 0 0 text.toList with
    | some bytes => .ok bytes
    | none => .error .malformed

/-! ### Dates and times -/

/-- The number of `least` up to `most` digits at the beginning of a text, and
what comes after it. -/
def numberAt? (least most : Nat) (text : List Char) : Option (Nat × List Char) :=
  let digits := (text.take most).takeWhile Char.isDigit
  if digits.length < least then none
  else some (digits.foldl (fun n d => 10 * n + (d.toNat - 48)) 0, text.drop digits.length)

/-- What comes after a character at the beginning of a text. -/
def after? (c : Char) : List Char → Option (List Char)
  | [] => none
  | x :: rest => if x = c then some rest else none

/-- Whether nothing is left, or only a line feed. -/
def isOver (text : List Char) : Bool := text.isEmpty || text == ['\n']

/-- Microseconds from the digits behind the point. -/
def microseconds (digits : List Char) : Nat :=
  (digits.take 6 ++ List.replicate (6 - digits.length) '0').foldl
    (fun n d => 10 * n + (d.toNat - 48)) 0

/-- The digits behind a point, if there is one, and what comes after them. -/
def fractionAt (text : List Char) : List Char × List Char :=
  match text with
  | '.' :: rest => (rest.takeWhile Char.isDigit, rest.dropWhile Char.isDigit)
  | _ => ([], text)

/-- The offset at the end of a time, in seconds. -/
def zoneAt? (text : List Char) : Option (Option Int) :=
  if isOver text then some none
  else match text.dropWhile fun c => c == ' ' || c == '\t' with
    | 'Z' :: rest => if isOver rest then some (some 0) else none
    | mark :: rest => do
      guard (mark == '+' || mark == '-')
      let (hours, rest) ← numberAt? 1 2 rest
      let (minutes, rest) ← match rest with
        | ':' :: rest => numberAt? 2 2 rest
        | rest => some (0, rest)
      guard (isOver rest)
      let seconds : Int := hours * 3600 + minutes * 60
      some (some (if mark == '-' then -seconds else seconds))
    | [] => none

/-- The numbers of a clock: hour, minute, second, microsecond and offset. -/
structure Clock where
  hour : Nat
  minute : Nat
  second : Nat
  microsecond : Nat
  offset : Option Int

/-- Reads a clock. -/
def clockAt? (text : List Char) : Option Clock := do
  let (hour, rest) ← numberAt? 1 2 text
  let (minute, rest) ← numberAt? 2 2 (← after? ':' rest)
  let (second, rest) ← numberAt? 2 2 (← after? ':' rest)
  let (digits, rest) := fractionAt rest
  let offset ← zoneAt? rest
  some ⟨hour, minute, second, microseconds digits, offset⟩

/-- What stands between a date and its clock is left out: the letter T, or
blanks. -/
def clockText? : List Char → Option (List Char)
  | c :: rest =>
    if c = 'T' || c = 't' then some rest
    else if c = ' ' || c = '\t' then some (rest.dropWhile fun c => c == ' ' || c == '\t')
    else none
  | [] => none

/-- The numbers of a date, and of its clock if it has one. -/
def timeNumbers? (text : List Char) : Option ((Nat × Nat × Nat) × Option Clock) := do
  let (year, rest) ← numberAt? 4 4 text
  let (month, rest) ← numberAt? 1 2 (← after? '-' rest)
  let (day, rest) ← numberAt? 1 2 (← after? '-' rest)
  if isOver rest then some ((year, month, day), none)
  else
    let clock ← clockAt? (← clockText? rest)
    some ((year, month, day), some clock)

/-- The number of seconds of a day. -/
def daySeconds : Nat := 86400

/-- The date or time with the given numbers. -/
def timeOfNumbers (year month day : Nat) : Option Clock → Except CalendarFault Scalar
  | none => do
    let date ← Date.ofNumbers year month day
    .ok (.date date)
  | some c => do
    if let some seconds := c.offset then
      if daySeconds ≤ seconds.natAbs then .error (.offset seconds)
    let date ← Date.ofNumbers year month day
    let time ← DateTime.ofNumbers date c.hour c.minute c.second c.microsecond c.offset
    .ok (.time time)

/-- Reads a date or time. -/
def readTime (text : String) : Except Fault Scalar :=
  match timeNumbers? text.toList with
  | none => .error .badTime
  | some ((year, month, day), clock) =>
    match timeOfNumbers year month day clock with
    | .ok s => .ok s
    | .error fault => .error (.calendar fault)

end Winnow.Yaml
