/-
Winnow/Yaml/Token/Lexer.lean

From the text of a document to its tokens.

The lexer keeps the indentations of the open block collections, the depth of
the open flow collections, and for each depth the token that may yet turn out
to be a key because a colon follows it on its line (`PossibleKey`).  When the
colon comes, the token `key` is put in front of that token, and the token that
starts a block mapping in front of it where one begins there.

Each step takes at least one character or ends the stream, so as many steps as
there are characters, and one more, read a text to its end.
-/
import Winnow.Yaml.Supply
import Winnow.Yaml.Token
import Winnow.Yaml.Token.Scalar

namespace Winnow.Yaml

/-- A token that is a key if a colon follows on its line. -/
structure PossibleKey where
  /-- The position of the token among the tokens. -/
  position : Nat
  /-- Whether the text is wrong if no colon follows. -/
  required : Bool
  index : Nat
  line : Nat
  column : Nat
  deriving Repr

/-- The state of the lexer. -/
structure Lexer where
  cursor : Cursor
  tokens : Array Token
  /-- How many flow collections are open. -/
  depth : Nat
  /-- The column of the innermost open block collection, or minus one. -/
  indent : Int
  /-- The columns of the block collections around it. -/
  outer : List Int
  /-- Whether a key may start here. -/
  keyAllowed : Bool
  /-- The possible key at each depth. -/
  possible : List (Nat × PossibleKey)

namespace Lexer

/-- The lexer at the beginning of a text. -/
def start (text : List Char) : Lexer := ⟨.start text, #[], 0, -1, [], true, []⟩

/-- Whether a flow collection is open. -/
def inFlow (l : Lexer) : Bool := l.depth != 0

/-- Adds a token. -/
def emit (l : Lexer) (t : Token) : Lexer := { l with tokens := l.tokens.push t }

/-- Goes on by `n` characters. -/
def advance (l : Lexer) (n : Nat) : Lexer := { l with cursor := l.cursor.skip n }

/-! ### Indentation -/

/-- Closes block collections up to a column. -/
def unwind (column : Int) (l : Lexer) : Lexer :=
  if l.inFlow then l else close l.outer l
where
  /-- Closes the block collections inside those whose columns are given. -/
  close : List Int → Lexer → Lexer
    | [], l => l
    | i :: rest, l =>
      if l.indent > column then
        close rest { l.emit .blockEnd with indent := i, outer := rest }
      else l

/-- Opens a block collection at a column, if it is further in than the open
one. -/
def openBlock (column : Nat) (l : Lexer) : Bool × Lexer :=
  if l.indent < column then
    (true, { l with outer := l.indent :: l.outer, indent := column })
  else (false, l)

/-- Opens a block collection here, with its token. -/
def openBlockHere (t : Token) (l : Lexer) : Lexer :=
  let (opened, l) := l.openBlock l.cursor.column
  if opened then l.emit t else l

/-! ### Possible keys -/

/-- Whether a possible key is no longer on this line, or too far back. -/
def isStale (l : Lexer) (k : PossibleKey) : Bool :=
  k.line != l.cursor.line || l.cursor.index - k.index > 1024

/-- Drops the possible keys that are stale. -/
def dropStale (l : Lexer) : Except Stop Lexer :=
  if l.possible.any fun p => l.isStale p.2 && p.2.required then .error l.cursor.wrong
  else .ok { l with possible := l.possible.filter fun p => !l.isStale p.2 }

/-- Drops the possible key of this depth. -/
def dropPossible (l : Lexer) : Except Stop Lexer :=
  match l.possible.lookup l.depth with
  | some k =>
    if k.required then .error l.cursor.wrong
    else .ok { l with possible := l.possible.filter (·.1 != l.depth) }
  | none => .ok l

/-- Makes the next token a possible key, where a key may start. -/
def savePossible (l : Lexer) : Except Stop Lexer :=
  if l.keyAllowed then do
    let required := !l.inFlow && l.indent == l.cursor.column
    let l ← l.dropPossible
    let k : PossibleKey :=
      ⟨l.tokens.size, required, l.cursor.index, l.cursor.line, l.cursor.column⟩
    .ok { l with possible := (l.depth, k) :: l.possible }
  else .ok l

/-! ### Between tokens -/

/-- Passes over spaces, comments and line breaks.  Behind a break a key may
start, unless a flow collection is open. -/
def passGaps : (fuel : Nat) → Lexer → Lexer
  | 0, l => l
  | fuel + 1, l =>
    let c := l.cursor.skipSpaces.skipComment
    if c.char?.any isBreak then
      passGaps fuel { l with cursor := c.lineBreak.2, keyAllowed := l.keyAllowed || !l.inFlow }
    else { l with cursor := c }

/-- Goes on to the next token. -/
def toNextToken (l : Lexer) : Lexer :=
  let l := if l.cursor.index = 0 && l.cursor.isAt byteOrderMark then l.advance 1 else l
  l.passGaps (l.cursor.rest.length + 1)

/-! ### Marks of structure -/

/-- The end of the stream. -/
def endStream (l : Lexer) : Except Stop Lexer := do
  let l ← (l.unwind (-1)).dropPossible
  .ok ({ l with keyAllowed := false, possible := [] }.emit .streamEnd)

/-- The beginning or end of a document. -/
def documentMarker (t : Token) (l : Lexer) : Except Stop Lexer := do
  let l ← (l.unwind (-1)).dropPossible
  .ok (({ l with keyAllowed := false }.advance 3).emit t)

/-- The opening mark of a flow collection. -/
def openFlow (t : Token) (l : Lexer) : Except Stop Lexer := do
  let l ← l.savePossible
  .ok (({ l with depth := l.depth + 1, keyAllowed := true }.advance 1).emit t)

/-- The closing mark of a flow collection. -/
def closeFlow (t : Token) (l : Lexer) : Except Stop Lexer := do
  let l ← l.dropPossible
  .ok (({ l with depth := l.depth - 1, keyAllowed := false }.advance 1).emit t)

/-- The comma of a flow collection. -/
def flowEntry (l : Lexer) : Except Stop Lexer := do
  let l ← { l with keyAllowed := true }.dropPossible
  .ok ((l.advance 1).emit .flowEntry)

/-- The hyphen of a block sequence. -/
def blockEntry (l : Lexer) : Except Stop Lexer := do
  if !l.inFlow && !l.keyAllowed then .error l.cursor.wrong
  else
    let l := if l.inFlow then l else l.openBlockHere .blockSequenceStart
    let l ← { l with keyAllowed := true }.dropPossible
    .ok ((l.advance 1).emit .blockEntry)

/-- The question mark before a key. -/
def keyMark (l : Lexer) : Except Stop Lexer := do
  if !l.inFlow && !l.keyAllowed then .error l.cursor.wrong
  else
    let l := if l.inFlow then l else l.openBlockHere .blockMappingStart
    let l ← { l with keyAllowed := !l.inFlow }.dropPossible
    .ok ((l.advance 1).emit .key)

/-- Puts a token in front of the token at a position. -/
def insertAt (position : Nat) (t : Token) (l : Lexer) : Lexer :=
  { l with tokens := (l.tokens.take position).push t ++ l.tokens.drop position }

/-- Makes a possible key the key of a colon. -/
def confirmKey (k : PossibleKey) (l : Lexer) : Lexer :=
  let l := { l with possible := l.possible.filter (·.1 != l.depth) }.insertAt k.position .key
  let (opened, l) := if l.inFlow then (false, l) else l.openBlock k.column
  let l := if opened then l.insertAt k.position .blockMappingStart else l
  { l with keyAllowed := false }

/-- The colon before a value whose key stood alone. -/
def loneValue (l : Lexer) : Except Stop Lexer :=
  if !l.inFlow && !l.keyAllowed then .error l.cursor.wrong
  else
    let l := if l.inFlow then l else l.openBlockHere .blockMappingStart
    { l with keyAllowed := !l.inFlow }.dropPossible

/-- The colon before a value. -/
def valueMark (l : Lexer) : Except Stop Lexer := do
  let l ← match l.possible.lookup l.depth with
    | some k => .ok (l.confirmKey k)
    | none => l.loneValue
  .ok ((l.advance 1).emit .value)

/-! ### Directives -/

/-- The decimal number at a place, and the place after it. -/
def directiveNumber (c : Cursor) : Except Stop (Nat × Cursor) :=
  let (digits, c) := c.span Char.isDigit
  if digits.isEmpty then .error c.wrong
  else if Decimal.digitLimit < digits.length then .error (c.stop (.longInteger digits.length))
  else .ok (digits.foldl (fun n d => 10 * n + (d.toNat - 48)) 0, c)

/-- The version behind its directive. -/
def versionDirective (c : Cursor) : Except Stop (Token × Cursor) := do
  let (major, c) ← directiveNumber c.skipSpaces
  if !c.isAt '.' then .error c.wrong
  else
    let (minor, c) ← directiveNumber c.next
    if endsWord c.char? then .ok (.versionDirective major minor, c) else .error c.wrong

/-- The handle of a tag: exclamation marks around a name, or one alone. -/
def tagHandle (c : Cursor) : Except Stop (String × Cursor) :=
  if !c.isAt '!' then .error c.wrong
  else
    let (name, after) := c.next.span isNameChar
    if after.isAt '!' then .ok (String.ofList ('!' :: name ++ ['!']), after.next)
    else if name.isEmpty && c.ahead? 1 == some ' ' then .ok ("!", after)
    else .error after.wrong

/-- Whether a character may stand in the rest of a tag. -/
def isTagChar (c : Char) : Bool :=
  c.isAlphanum || "-;/?:@&=+$,_.!~*'()[]".toList.contains c

/-- The bytes of escapes by percent signs, and the place after them. -/
def percentBytes : (fuel : Nat) → Cursor → Except Stop (List UInt8 × Cursor)
  | 0, c => .error c.wrong
  | fuel + 1, c =>
    if c.isAt '%' then match hexNumber? 2 c.next.rest with
      | none => .error (afterHexDigits c.next).wrong
      | some n => do
        let (more, c) ← percentBytes fuel (c.skip 3)
        .ok (n.toUInt8 :: more, c)
    else .ok ([], c)

/-- The rest of a tag from a place on, and the place after it. -/
def tagSuffixFrom : (fuel : Nat) → Cursor → Except Stop (List Char × Cursor)
  | 0, c => .error c.wrong
  | fuel + 1, c => do
    let (run, c) := c.span isTagChar
    if c.isAt '%' then
      let (bytes, c) ← percentBytes (c.rest.length + 1) c
      match String.fromUTF8? ⟨bytes.toArray⟩ with
      | none => .error c.wrong
      | some text =>
        let (more, c) ← tagSuffixFrom fuel c
        .ok (run ++ text.toList ++ more, c)
    else .ok (run, c)

/-- The rest of a tag, which has at least one character, and the place after
it. -/
def tagSuffix (c : Cursor) : Except Stop (String × Cursor) := do
  let (text, after) ← tagSuffixFrom (c.rest.length + 1) c
  if after.index = c.index then .error after.wrong else .ok (String.ofList text, after)

/-- The handle and what it stands for, behind their directive. -/
def tagDirective (c : Cursor) : Except Stop (Token × Cursor) := do
  let (handle, c) ← tagHandle c.skipSpaces
  if !c.isAt ' ' then .error c.wrong
  else
    let (start, c) ← tagSuffix c.skipSpaces
    if endsWord c.char? then .ok (.tagDirective handle start, c) else .error c.wrong

/-- A directive, and the place of the next line. -/
def directiveAt (c : Cursor) : Except Stop (Token × Cursor) := do
  let (name, c) := c.span isNameChar
  if name.isEmpty || !endsWord c.char? then .error c.wrong
  else
    let (t, c) ←
      if name == "YAML".toList then versionDirective c
      else if name == "TAG".toList then tagDirective c
      else .ok (.otherDirective, c.restOfLine.2)
    .ok (t, ← passLine c)

/-- The percent sign of a directive. -/
def directive (l : Lexer) : Except Stop Lexer := do
  let l ← (l.unwind (-1)).dropPossible
  let (t, c) ← directiveAt l.cursor.next
  .ok ({ l with keyAllowed := false, cursor := c }.emit t)

/-! ### Properties and scalars -/

/-- Whether a place ends the name of an anchor. -/
def endsAnchor (c : Option Char) : Bool :=
  endsPlain c || c.any fun x => "?:,]%@".toList.contains x || x == '\x7d' || x.toNat == 0x60

/-- A mark with a name behind it: an anchor, or a reference to one. -/
def namedMark (token : String → Token) (l : Lexer) : Except Stop Lexer := do
  let l ← l.savePossible
  let (name, c) := l.cursor.next.span isNameChar
  if name.isEmpty || !endsAnchor c.char? then .error c.wrong
  else .ok ({ l with keyAllowed := false, cursor := c }.emit (token (String.ofList name)))

/-- Whether a tag begins with a handle: a second exclamation mark comes before
the end of the word. -/
def hasHandle (c : Cursor) : Bool :=
  (c.next.rest.takeWhile fun x => !endsWord (some x)).contains '!'

/-- A tag, and the place after it. -/
def tagAt (c : Cursor) : Except Stop (TagText × Cursor) :=
  if c.ahead? 1 == some '<' then do
    let (suffix, c) ← tagSuffix (c.skip 2)
    if c.isAt '>' then .ok (⟨none, suffix⟩, c.next) else .error c.wrong
  else if endsPlain (c.ahead? 1) then .ok (⟨none, "!"⟩, c.next)
  else do
    let (handle, c) ← if hasHandle c then tagHandle c else .ok ("!", c.next)
    let (suffix, c) ← tagSuffix c
    .ok (⟨some handle, suffix⟩, c)

/-- A tag. -/
def tagMark (l : Lexer) : Except Stop Lexer := do
  let l ← l.savePossible
  let (t, c) ← tagAt l.cursor
  if endsWord c.char? then .ok ({ l with keyAllowed := false, cursor := c }.emit (.tag t))
  else .error c.wrong

/-- A block scalar. -/
def blockText (folds : Bool) (l : Lexer) : Except Stop Lexer := do
  let l ← { l with keyAllowed := true }.dropPossible
  let (text, c) ← blockScalar folds l.indent l.cursor
  .ok ({ l with cursor := c }.emit (.scalar (String.ofList text) false))

/-- A quoted scalar. -/
def quotedText (l : Lexer) : Except Stop Lexer := do
  let l ← l.savePossible
  let (text, c) ← quotedScalar l.cursor
  .ok ({ l with keyAllowed := false, cursor := c }.emit (.scalar (String.ofList text) false))

/-- A plain scalar. -/
def plainText (l : Lexer) : Except Stop Lexer := do
  let l ← l.savePossible
  let c := l.cursor
  let (text, c, broke) := plainFrom l.inFlow (l.indent + 1) (c.rest.length + 1) [] c false
  .ok ({ l with keyAllowed := broke, cursor := c }.emit (.scalar (String.ofList text) true))

/-! ### Steps -/

/-- Whether a character starts no plain scalar by itself. -/
def isIndicator (c : Char) : Bool :=
  "-?:,[]#&*!|>%@".toList.contains c || c == '\x7b' || c == '\x7d' || c == '"'
    || c.toNat == 0x27 || c.toNat == 0x60

/-- Whether a plain scalar starts here. -/
def startsPlain (l : Lexer) (x : Char) : Bool :=
  !(endsPlain (some x) || isIndicator x)
    || (!endsPlain (l.cursor.ahead? 1) && (x == '-' || (!l.inFlow && (x == '?' || x == ':'))))

/-- Reads the token that starts with a character. -/
def readToken (l : Lexer) (x : Char) : Except Stop Lexer :=
  let atLineStart := l.cursor.column = 0
  let standsAlone := endsPlain (l.cursor.ahead? 1)
  if x = '%' && atLineStart then l.directive
  else if atLineStart && l.cursor.hasMarker '-' then l.documentMarker .documentStart
  else if atLineStart && l.cursor.hasMarker '.' then l.documentMarker .documentEnd
  else if x = '[' then l.openFlow .flowSequenceStart
  else if x = '\x7b' then l.openFlow .flowMappingStart
  else if x = ']' then l.closeFlow .flowSequenceEnd
  else if x = '\x7d' then l.closeFlow .flowMappingEnd
  else if x = ',' then l.flowEntry
  else if x = '-' && standsAlone then l.blockEntry
  else if x = '?' && (l.inFlow || standsAlone) then l.keyMark
  else if x = ':' && (l.inFlow || standsAlone) then l.valueMark
  else if x = '*' then l.namedMark .reference
  else if x = '&' then l.namedMark .anchor
  else if x = '!' then l.tagMark
  else if x = '|' && !l.inFlow then l.blockText false
  else if x = '>' && !l.inFlow then l.blockText true
  else if x.toNat = 0x27 || x = '"' then l.quotedText
  else if l.startsPlain x then l.plainText
  else .error l.cursor.wrong

/-- Reads the next token.  There is none left to read where a character is
missing. -/
def step (l : Lexer) : Except Stop (Lexer × Bool) := do
  let l ← l.dropStale
  let l ← l.toNextToken.dropStale
  let l := l.unwind l.cursor.column
  match l.cursor.char? with
  | none => .ok (← l.endStream, false)
  | some x => .ok (← l.readToken x, true)

/-- How many tokens can be looked at without reading on: those in front of the
first one that may yet turn out to be a key. -/
def certain (l : Lexer) : Nat :=
  (l.possible.filter fun p => !l.isStale p.2).foldl (fun n p => min n p.2.position) l.tokens.size

/-- The tokens that can be looked at, and a fault in the place of the next
one. -/
def breakOff (l : Lexer) (f : Fault) : List Token :=
  (l.tokens.take l.certain).toList ++ [.broken f]

/-- Reads the rest of the tokens, where `ending` says why nothing can be read
behind the text.  A step that comes to the end of the text has looked at what
is behind it. -/
def run (ending : Option Fault) : (fuel : Nat) → Lexer → List Token
  | 0, l => l.breakOff .malformed
  | fuel + 1, l =>
    let behind (c : Cursor) : Option Fault := if c.isEnd then ending else none
    match l.step with
    | .error stop => l.breakOff ((behind stop.place).getD stop.fault)
    | .ok (next, goesOn) => match behind next.cursor with
      | some f => l.breakOff f
      | none => if goesOn then run ending fuel next else next.tokens.toList

end Lexer

/-- The tokens of a supply. -/
def Supply.tokens (s : Supply) : List Token :=
  (Lexer.start s.text).run s.ending (s.text.length + 2)

end Winnow.Yaml
