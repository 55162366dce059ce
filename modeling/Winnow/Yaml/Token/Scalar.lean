/-
Winnow/Yaml/Token/Scalar.lean

The texts of scalars.

A plain scalar runs until a colon or a comment that ends it; quoted scalars
run to their closing mark; in all three a single line break reads as a space
and each further one as itself.  A block scalar takes the lines of its
indentation, keeps their breaks or folds them, and keeps, clips or drops the
breaks at its end.
-/
import Winnow.Yaml.Cursor

namespace Winnow.Yaml

/-! ### Line breaks between words -/

/-- What a line break and the breaks after it read as: a space for one line
feed alone, nothing for a line feed before others, and itself for every other
break. -/
def foldedBreak (first others : List Char) : List Char :=
  if first ≠ ['\n'] then first ++ others
  else if others.isEmpty then [' ']
  else others

/-! ### Plain scalars -/

/-- Whether a character separates the parts of a flow collection. -/
def isFlowMark (c : Char) : Bool :=
  c == ',' || c == '[' || c == ']' || c == '\x7b' || c == '\x7d'

/-- Whether a character, with the one after it, ends a run of a plain scalar. -/
def endsPlainRun (inFlow : Bool) (c : Char) (after : Option Char) : Bool :=
  endsPlain (some c)
    || (c == ':' && (endsPlain after || (inFlow && after.any isFlowMark)))
    || (inFlow && (c == '?' || isFlowMark c))

/-- The length of the run of a plain scalar at the beginning of a text. -/
def plainRunLength (inFlow : Bool) : List Char → Nat
  | [] => 0
  | c :: rest => if endsPlainRun inFlow c rest.head? then 0 else plainRunLength inFlow rest + 1

/-- The breaks of empty lines, and the place of the next word.  There are none
when a document marker stands between. -/
def emptyLines : (fuel : Nat) → Cursor → Option (List Char) × Cursor
  | 0, c => (some [], c)
  | fuel + 1, c =>
    if c.isAt ' ' then emptyLines fuel c.next
    else if c.char?.any isBreak then
      let (first, c) := c.lineBreak
      if c.atDocumentMarker then (none, c)
      else
        let (others, c) := emptyLines fuel c
        (others.map (first ++ ·), c)
    else (some [], c)

/-- What stands between two words of a plain scalar. -/
structure Gap where
  /-- What the gap reads as; empty when the scalar ends here. -/
  text : List Char
  /-- The place after the gap. -/
  after : Cursor
  /-- Whether a line was broken. -/
  broke : Bool

/-- The gap at a place in a plain scalar. -/
def plainGap (c : Cursor) : Gap :=
  let (spaces, c) := c.span (· == ' ')
  if c.char?.any isBreak then
    let (first, c) := c.lineBreak
    if c.atDocumentMarker then ⟨[], c, true⟩
    else match emptyLines (c.rest.length + 1) c with
      | (none, c) => ⟨[], c, true⟩
      | (some others, c) => ⟨foldedBreak first others, c, true⟩
  else ⟨spaces, c, false⟩

/-- A plain scalar from a place on: its text, the place after it, and whether
a line was broken behind its last word. -/
def plainFrom (inFlow : Bool) (indent : Int) :
    (fuel : Nat) → (gap : List Char) → Cursor → (broke : Bool) → List Char × Cursor × Bool
  | 0, _, c, broke => ([], c, broke)
  | fuel + 1, gap, c, broke =>
    let count := plainRunLength inFlow c.rest
    if c.isAt '#' || count = 0 then ([], c, broke)
    else
      let word := c.rest.take count
      let g := plainGap (c.skip count)
      if g.text.isEmpty || g.after.isAt '#' || (!inFlow && g.after.column < indent) then
        (gap ++ word, g.after, g.broke)
      else
        let (more, after, broke) := plainFrom inFlow indent fuel g.text g.after g.broke
        (gap ++ word ++ more, after, broke)

/-! ### Quoted scalars -/

/-- The character of an escape of one letter. -/
def escapeLetter? : Char → Option Char
  | '0' => some '\x00'
  | 'a' => some '\x07'
  | 'b' => some '\x08'
  | 't' => some '\t'
  | '\t' => some '\t'
  | 'n' => some '\n'
  | 'v' => some '\x0B'
  | 'f' => some '\x0C'
  | 'r' => some '\r'
  | 'e' => some '\x1B'
  | ' ' => some ' '
  | '"' => some '"'
  | '\\' => some '\\'
  | '/' => some '/'
  | 'N' => some nextLine
  | '_' => some '\u00A0'
  | 'L' => some '\u2028'
  | 'P' => some '\u2029'
  | _ => none

/-- How many hexadecimal digits follow the letter of an escape. -/
def escapeWidth? : Char → Option Nat
  | 'x' => some 2
  | 'u' => some 4
  | 'U' => some 8
  | _ => none

/-- The value of a hexadecimal digit. -/
def hexValue? (c : Char) : Option Nat :=
  if c.isDigit then some (c.toNat - 48)
  else if 'a' ≤ c && c ≤ 'f' then some (c.toNat - 87)
  else if 'A' ≤ c && c ≤ 'F' then some (c.toNat - 55)
  else none

/-- The number written by exactly `width` hexadecimal digits at the beginning
of a text. -/
def hexNumber? (width : Nat) (text : List Char) : Option Nat := do
  let digits ← (text.take width).mapM hexValue?
  guard (digits.length = width)
  some (digits.foldl (fun n d => 16 * n + d) 0)

/-- The place of the first character that is no hexadecimal digit. -/
def afterHexDigits (c : Cursor) : Cursor := c.skipWhile fun x => (hexValue? x).isSome

/-- The character with a code. -/
def charOfCode (n : Nat) : Except Fault Char :=
  if 0x80000000 ≤ n then .error .hugeCharacter
  else if 0x110000 ≤ n then .error .noCharacter
  else .ok (Char.ofNat n)

/-- The breaks of empty lines in a quoted scalar, and the place of the next
word. -/
def quotedBreaks : (fuel : Nat) → Cursor → Except Stop (List Char × Cursor)
  | 0, c => .error c.wrong
  | fuel + 1, c =>
    if c.atDocumentMarker then .error c.wrong
    else
      let c := c.skipWhile isBlank
      if c.char?.any isBreak then do
        let (first, c) := c.lineBreak
        let (others, c) ← quotedBreaks fuel c
        .ok (first ++ others, c)
      else .ok ([], c)

/-- What an escape behind a backslash reads as, and the place after it. -/
def escape (c : Cursor) : Except Stop (List Char × Cursor) :=
  match c.char? with
  | none => .error c.wrong
  | some letter =>
    match escapeLetter? letter, escapeWidth? letter with
    | some x, _ => .ok ([x], c.next)
    | none, some width =>
      match hexNumber? width c.next.rest with
      | none => .error (afterHexDigits c.next).wrong
      | some n => match charOfCode n with
        | .ok x => .ok ([x], c.next.skip width)
        | .error f => .error (c.next.stop f)
    | none, none =>
      if isBreak letter then
        let c := c.lineBreak.2
        quotedBreaks (c.rest.length + 1) c
      else .error c.wrong

/-- Whether a character needs a look in a quoted scalar. -/
def isQuotedSpecial (c : Char) : Bool :=
  c.toNat == 0x27 || c == '"' || c == '\\' || isBlank c || isBreak c

/-- A word of a quoted scalar, and the place after it. -/
def quotedWord (isDouble : Bool) : (fuel : Nat) → Cursor → Except Stop (List Char × Cursor)
  | 0, c => .error c.wrong
  | fuel + 1, c => do
    let (run, c) := c.span (!isQuotedSpecial ·)
    let single := Char.ofNat 0x27
    if !isDouble && c.isAt single && c.ahead? 1 == some single then
      let (more, c) ← quotedWord isDouble fuel (c.skip 2)
      .ok (run ++ single :: more, c)
    else if isDouble && c.isAt '\\' then
      let (read, c) ← escape c.next
      let (more, c) ← quotedWord isDouble fuel c
      .ok (run ++ read ++ more, c)
    else if (isDouble && c.isAt single) || (!isDouble && (c.isAt '"' || c.isAt '\\')) then
      let (more, after) ← quotedWord isDouble fuel c.next
      .ok (run ++ c.rest.take 1 ++ more, after)
    else .ok (run, c)

/-- What stands between two words of a quoted scalar, and the place after it. -/
def quotedGap (c : Cursor) : Except Stop (List Char × Cursor) :=
  let (blanks, c) := c.span isBlank
  match c.char? with
  | none => .error c.wrong
  | some x =>
    if isBreak x then do
      let (first, c) := c.lineBreak
      let (others, c) ← quotedBreaks (c.rest.length + 1) c
      .ok (foldedBreak first others, c)
    else .ok (blanks, c)

/-- The rest of a quoted scalar behind one of its words, and the place after
its closing mark. -/
def quotedRest (mark : Char) : (fuel : Nat) → Cursor → Except Stop (List Char × Cursor)
  | 0, c => .error c.wrong
  | fuel + 1, c =>
    if c.isAt mark then .ok ([], c.next)
    else do
      let (gap, c) ← quotedGap c
      let (word, c) ← quotedWord (mark == '"') (c.rest.length + 1) c
      let (more, c) ← quotedRest mark fuel c
      .ok (gap ++ word ++ more, c)

/-- A quoted scalar, and the place after it. -/
def quotedScalar (c : Cursor) : Except Stop (List Char × Cursor) :=
  match c.char? with
  | none => .error c.wrong
  | some mark => do
    let (word, c) ← quotedWord (mark == '"') (c.rest.length + 1) c.next
    let (more, c) ← quotedRest mark (c.rest.length + 1) c
    .ok (word ++ more, c)

/-! ### Block scalars -/

/-- What becomes of the line breaks at the end of a block scalar. -/
inductive Chomping
  | keep
  | clip
  | strip
  deriving DecidableEq, Repr

/-- The chomping that a character indicates. -/
def chomping? : Char → Option Chomping
  | '+' => some .keep
  | '-' => some .strip
  | _ => none

/-- An indicator of chomping, if one stands here, and the place after it. -/
def readChomping (c : Cursor) : Option Chomping × Cursor :=
  match c.char?.bind chomping? with
  | some k => (some k, c.next)
  | none => (none, c)

/-- An indicator of indentation, if one stands here, and the place after it. -/
def readIncrement (c : Cursor) : Except Stop (Option Nat × Cursor) :=
  match c.char? with
  | some x =>
    if x = '0' then .error c.wrong
    else if x.isDigit then .ok (some (x.toNat - 48), c.next)
    else .ok (none, c)
  | none => .ok (none, c)

/-- The indicators of a block scalar, in either order, and the place after
them. -/
def readIndicators (c : Cursor) : Except Stop (Chomping × Option Nat × Cursor) := do
  let (before, c) := readChomping c
  let (increment, c) ← readIncrement c
  let (behind, c) := if before.isNone && increment.isSome then readChomping c else (none, c)
  if endsWord c.char? then .ok ((before.orElse fun _ => behind).getD .clip, increment, c)
  else .error c.wrong

/-- Passes over spaces and a comment up to the end of the line, and over its
break. -/
def passLine (c : Cursor) : Except Stop Cursor :=
  let c := c.skipSpaces.skipComment
  if endsLine c.char? then .ok c.lineBreak.2 else .error c.wrong

/-- Passes over spaces while the column is less than `indent`. -/
def skipIndent (indent : Nat) (c : Cursor) : Cursor :=
  let spaces := (c.rest.takeWhile (· == ' ')).length
  c.skip (min spaces (indent - c.column))

/-- The breaks of the empty lines before the first line of a block scalar, the
widest column met in them, and the place after them. -/
def leadingLines : (fuel : Nat) → (widest : Nat) → Cursor → List Char × Nat × Cursor
  | 0, widest, c => ([], widest, c)
  | fuel + 1, widest, c =>
    if c.isAt ' ' then leadingLines fuel (max widest c.next.column) c.next
    else if c.char?.any isBreak then
      let (first, c) := c.lineBreak
      let (others, widest, c) := leadingLines fuel widest c
      (first ++ others, widest, c)
    else ([], widest, c)

/-- The breaks of the empty lines within a block scalar, and the place after
them. -/
def innerLines (indent : Nat) : (fuel : Nat) → Cursor → List Char × Cursor
  | 0, c => ([], c)
  | fuel + 1, c =>
    let c := skipIndent indent c
    if c.char?.any isBreak then
      let (first, c) := c.lineBreak
      let (others, c) := innerLines indent fuel c
      (first ++ others, c)
    else ([], c)

/-- Whether a line of a block scalar begins here. -/
def startsBlockLine (indent : Nat) (c : Cursor) : Bool := c.column == indent && c.char?.isSome

/-- The lines of a block scalar from one of them on: the text up to the last
of them, its break, the breaks of the empty lines after it, and the place after
them. -/
def blockLines (folds : Bool) (indent : Nat) :
    (fuel : Nat) → (breaks : List Char) → Cursor →
      List Char × List Char × List Char × Cursor
  | 0, breaks, c => ([], [], breaks, c)
  | fuel + 1, breaks, c =>
    let startsWithWord := !c.char?.any isBlank
    let (line, c) := c.restOfLine
    let (ending, c) := c.lineBreak
    let (empty, c) := innerLines indent (c.rest.length + 1) c
    if startsBlockLine indent c then
      let folded := folds && ending == ['\n'] && startsWithWord && !c.char?.any isBlank
      let joint := if folded then if empty.isEmpty then [' '] else [] else ending
      let (more, rest) := blockLines folds indent fuel empty c
      (breaks ++ line ++ joint ++ more, rest)
    else (breaks ++ line, ending, empty, c)

/-- A block scalar in a block of the given indentation, and the place after
it. -/
def blockScalar (folds : Bool) (parentIndent : Int) (c : Cursor) :
    Except Stop (List Char × Cursor) := do
  let (chomping, increment, c) ← readIndicators c.next
  let c ← passLine c
  let least := max 1 (parentIndent + 1).toNat
  let (indent, breaks, c) := match increment with
    | some n =>
      let indent := least + n - 1
      (indent, innerLines indent (c.rest.length + 1) c)
    | none =>
      let (breaks, widest, c) := leadingLines (c.rest.length + 1) 0 c
      (max least widest, breaks, c)
  let (text, ending, breaks, c) :=
    if startsBlockLine indent c then blockLines folds indent (c.rest.length + 1) breaks c
    else ([], [], breaks, c)
  match chomping with
  | .strip => .ok (text, c)
  | .clip => .ok (text ++ ending, c)
  | .keep => .ok (text ++ ending ++ breaks, c)

end Winnow.Yaml
