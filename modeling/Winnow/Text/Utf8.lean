/-
Winnow/Text/Utf8.lean

From bytes to text.

The first byte of a character says how many bytes follow and what the second
byte may be (`Lead`); the bytes after the second are `80` to `BF`.  Reading
stops at the first byte that breaks this rule.  A fault names the bytes of the
character so far and their position.
-/

namespace Winnow.Text

/-! ### Faults -/

/-- What is wrong with the bytes of a character. -/
inductive Utf8Cause
  | start
  | continuation
  | cutOff
  deriving DecidableEq, Repr

/-- A character that cannot be read: the position of its first byte, that
byte, the number of bytes that are to blame, and the cause. -/
structure Utf8Fault where
  position : Nat
  byte : UInt8
  count : Nat
  cause : Utf8Cause
  deriving DecidableEq, Repr

namespace Utf8Cause

/-- What is said about a cause. -/
def message : Utf8Cause → String
  | start => "invalid start byte"
  | continuation => "invalid continuation byte"
  | cutOff => "unexpected end of data"

end Utf8Cause

namespace Utf8Fault

/-- A byte by its two hexadecimal digits. -/
def byteText (b : UInt8) : String :=
  String.ofList ['0', 'x', Nat.digitChar (b.toNat / 16), Nat.digitChar (b.toNat % 16)]

/-- What is said about a fault. -/
def message (f : Utf8Fault) : String :=
  "'utf-8' codec can't decode "
    ++ (if f.count = 1 then s!"byte {byteText f.byte} in position {f.position}"
        else s!"bytes in position {f.position}-{f.position + f.count - 1}")
    ++ ": " ++ f.cause.message

end Utf8Fault

/-! ### Characters -/

/-- The kinds of first bytes: how many bytes follow, the range of the second
byte, and what the first byte adds to the code. -/
structure Lead where
  more : Nat
  least : Nat
  most : Nat
  high : Nat

namespace Lead

/-- The kind of a first byte. -/
def ofByte? (b : UInt8) : Option Lead :=
  let n := b.toNat
  if n < 0x80 then some ⟨0, 0, 0, n⟩
  else if n < 0xC2 then none
  else if n < 0xE0 then some ⟨1, 0x80, 0xBF, n - 0xC0⟩
  else if n = 0xE0 then some ⟨2, 0xA0, 0xBF, 0⟩
  else if n = 0xED then some ⟨2, 0x80, 0x9F, 0xD⟩
  else if n < 0xF0 then some ⟨2, 0x80, 0xBF, n - 0xE0⟩
  else if n = 0xF0 then some ⟨3, 0x90, 0xBF, 0⟩
  else if n < 0xF4 then some ⟨3, 0x80, 0xBF, n - 0xF0⟩
  else if n = 0xF4 then some ⟨3, 0x80, 0x8F, 4⟩
  else none

end Lead

/-- What stands at the beginning of some bytes. -/
inductive Utf8Step
  /-- A character of a number of bytes. -/
  | char (c : Char) (count : Nat)
  /-- The bytes end within a character. -/
  | cutOff
  /-- Bytes that are no character. -/
  | bad (count : Nat) (cause : Utf8Cause)

/-- Reads the bytes of a character behind its first `read` bytes. -/
def continueChar (code read : Nat) : (more least most : Nat) → List UInt8 → Utf8Step
  | 0, _, _, _ => .char (Char.ofNat code) read
  | _ + 1, _, _, [] => .cutOff
  | more + 1, least, most, b :: rest =>
    if least ≤ b.toNat && b.toNat ≤ most then
      continueChar (64 * code + b.toNat % 64) (read + 1) more 0x80 0xBF rest
    else .bad read .continuation

/-- Reads the character at the beginning of bytes that are not empty. -/
def charAt (b : UInt8) (rest : List UInt8) : Utf8Step :=
  match Lead.ofByte? b with
  | none => .bad 1 .start
  | some lead => continueChar lead.high 1 lead.more lead.least lead.most rest

/-! ### Bytes -/

/-- Whether bytes are the first two of the three that stand for half of a
surrogate pair. -/
def isHalfSurrogate : List UInt8 → Bool
  | [a, b] => a == 0xED && 0xA0 ≤ b && b ≤ 0xBF
  | _ => false

/-- The characters of bytes from a position on, with the bytes at the end that
only begin a character.  If more bytes may follow, half of a surrogate pair is
left as well when it is cut off. -/
def decodePiece (isLast : Bool) : (fuel : Nat) → (position : Nat) → List UInt8 →
    Except Utf8Fault (List Char × List UInt8)
  | 0, _, bytes => .ok ([], bytes)
  | _ + 1, _, [] => .ok ([], [])
  | fuel + 1, position, b :: rest =>
    match charAt b rest with
    | .char c count => do
      let (cs, left) ← decodePiece isLast fuel (position + count) (rest.drop (count - 1))
      .ok (c :: cs, left)
    | .cutOff => .ok ([], b :: rest)
    | .bad count cause =>
      if !isLast && isHalfSurrogate (b :: rest) then .ok ([], b :: rest)
      else .error ⟨position, b, count, cause⟩

/-- Nothing may be left at the end of some bytes.  What is left there begins at
a position. -/
def checkEnd (position : Nat) : (left : List UInt8) → Except Utf8Fault Unit
  | [] => .ok ()
  | b :: rest => .error ⟨position, b, rest.length + 1, .cutOff⟩

/-- The characters of bytes. -/
def decode (bytes : List UInt8) : Except Utf8Fault (List Char) := do
  let (cs, left) ← decodePiece true bytes.length 0 bytes
  checkEnd (bytes.length - left.length) left
  .ok cs

/-! ### Texts -/

/-- Line ends of any kind as line feeds. -/
def unifyLineEnds : List Char → List Char
  | '\r' :: '\n' :: cs => '\n' :: unifyLineEnds cs
  | '\r' :: cs => '\n' :: unifyLineEnds cs
  | c :: cs => c :: unifyLineEnds cs
  | [] => []

/-- The text of a file that is read at once. -/
def fileText (bytes : List UInt8) : Except Utf8Fault (List Char) :=
  (decode bytes).map unifyLineEnds

/-- The bytes of a text. -/
def textBytes (s : String) : List UInt8 := s.toUTF8.toList

/-- The text of bytes; empty if they are none. -/
def textOfBytes (bytes : List UInt8) : String := (String.fromUTF8? ⟨bytes.toArray⟩).getD ""

end Winnow.Text
