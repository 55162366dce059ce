/-
Winnow/Text/Pattern.lean

Patterns of text: a class of characters, and rows, choices and repetitions of
patterns.

A text is matched character by character.  What a pattern still asks for after
its first character is again a pattern (`Pattern.after`), and a text matches
when what is left of the pattern at its end may be empty.
-/

namespace Winnow.Text

/-- A pattern of text. -/
inductive Pattern
  /-- No text. -/
  | never
  /-- The empty text. -/
  | empty
  /-- One character of a class. -/
  | one (isIn : Char → Bool)
  | row (first second : Pattern)
  | choice (first second : Pattern)
  | repeated (part : Pattern)

namespace Pattern

/-! ### Matching -/

/-- Whether a pattern matches the empty text. -/
def mayBeEmpty : Pattern → Bool
  | never => false
  | empty => true
  | one _ => false
  | row p q => p.mayBeEmpty && q.mayBeEmpty
  | choice p q => p.mayBeEmpty || q.mayBeEmpty
  | repeated _ => true

/-- One pattern and then another, without parts that match nothing. -/
def andThen : Pattern → Pattern → Pattern
  | never, _ => never
  | empty, q => q
  | p, q => row p q

/-- One pattern or another, without parts that match nothing. -/
def orElse : Pattern → Pattern → Pattern
  | never, q => q
  | p, never => p
  | p, q => choice p q

/-- What a pattern asks for after a first character. -/
def after (c : Char) : Pattern → Pattern
  | never => never
  | empty => never
  | one isIn => if isIn c then empty else never
  | row p q =>
    let rest := (p.after c).andThen q
    if p.mayBeEmpty then rest.orElse (q.after c) else rest
  | choice p q => (p.after c).orElse (q.after c)
  | repeated p => (p.after c).andThen (repeated p)

/-- Whether a text matches a pattern. -/
def accepts (p : Pattern) (text : List Char) : Bool :=
  (text.foldl (fun q c => q.after c) p).mayBeEmpty

/-! ### Forms -/

/-- The pattern of a given character. -/
def exactly (c : Char) : Pattern := one (· == c)

/-- The pattern of the characters of a text. -/
def charOf (chars : String) : Pattern := one fun c => chars.toList.contains c

/-- The pattern of a given text. -/
def word (text : String) : Pattern := text.toList.foldr (fun c p => row (exactly c) p) empty

/-- Patterns one after another. -/
def inRow (parts : List Pattern) : Pattern := parts.foldr row empty

/-- Any one of several patterns. -/
def anyOf (parts : List Pattern) : Pattern := parts.foldr choice never

/-- Any one of several texts. -/
def anyWord (words : List String) : Pattern := anyOf (words.map word)

/-- A pattern or the empty text. -/
def optional (p : Pattern) : Pattern := choice p empty

/-- A pattern at least once. -/
def atLeastOnce (p : Pattern) : Pattern := row p (repeated p)

/-- A decimal digit. -/
def digit : Pattern := one Char.isDigit

/-- A number of decimal digits. -/
def digits (count : Nat) : Pattern := inRow (List.replicate count digit)

/-- One or two decimal digits. -/
def oneOrTwoDigits : Pattern := row digit (optional digit)

end Pattern

end Winnow.Text
