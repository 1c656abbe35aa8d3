import PixelHost.Lua.SyntaxError

/-!
# Reading tokens

A source text is read from left to right, one token at a time. Blanks, line ends and comments
between tokens are skipped. The position after a token and the line reached there are all the state
that reading keeps.

## Main definitions

* `Lua.Cursor` — a position in a source text with its line.
* `Lua.Lexer.token` — the next token at a cursor, with the cursor after it.
-/

namespace PixelHost.Lua

/-- A position in a source text, and the line it stands on. -/
structure Cursor where
  pos : Nat := 0
  line : Nat := 1
  deriving DecidableEq, Repr, Inhabited

namespace Lexer

/-- The byte ends a line. -/
@[inline] def isNewline (b : UInt8) : Bool := b == 10 || b == 13

/-- The byte begins a name. -/
@[inline] def isLetter (b : UInt8) : Bool :=
  (97 ≤ b && b ≤ 122) || (65 ≤ b && b ≤ 90) || b == 95

/-- The byte continues a name. -/
@[inline] def isNameByte (b : UInt8) : Bool := isLetter b || Numeral.isDigit b

/-- The position after the bytes with a property, from `pos` on, at most `n` of them. -/
def skipWhile (src : Bytes) (p : UInt8 → Bool) (pos : Nat) : Nat → Nat
  | 0 => pos
  | n + 1 =>
    if h : pos < src.size then
      if p src[pos] then skipWhile src p (pos + 1) n else pos
    else pos

/-- The position after the bytes with a property. -/
@[inline] def spanEnd (src : Bytes) (p : UInt8 → Bool) (pos : Nat) : Nat :=
  skipWhile src p pos (src.size - pos)

/-- The cursor after a line end, which may be two different bytes. -/
def afterNewline (src : Bytes) (c : Cursor) : Cursor :=
  let b := src.at0 c.pos
  let next := src.get? (c.pos + 1)
  match next with
  | some d => if isNewline d && d != b then ⟨c.pos + 2, c.line + 1⟩ else ⟨c.pos + 1, c.line + 1⟩
  | none => ⟨c.pos + 1, c.line + 1⟩

/-- The number of equality signs of a long bracket at a position, if one stands there. -/
def longBracketLevel? (src : Bytes) (pos : Nat) : Option Nat :=
  let stop := spanEnd src (· == 61) (pos + 1)
  if stop < src.size && src.at0 stop == src.at0 pos then some (stop - (pos + 1)) else none

/-- The rest of a long bracket of a level: its text so far, up to the closing bracket. -/
def longText (src : Bytes) (level startLine : Nat) (comment : Bool) (c : Cursor) (acc : Bytes) :
    Nat → Except SyntaxError (Bytes × Cursor)
  | 0 => .error ⟨.unfinishedLong comment startLine, c.line, some Token.eof.near⟩
  | n + 1 =>
    match src.get? c.pos with
    | none => .error ⟨.unfinishedLong comment startLine, c.line, some Token.eof.near⟩
    | some b =>
      if b == 93 && longBracketLevel? src c.pos == some level then
        .ok (acc, ⟨c.pos + level + 2, c.line⟩)
      else if isNewline b then
        longText src level startLine comment (afterNewline src c) (if comment then acc else acc.push 10) n
      else
        longText src level startLine comment ⟨c.pos + 1, c.line⟩ (if comment then acc else acc.push b) n

/-- The text in a long bracket of a level, whose opening bracket stands at the cursor. A line end
right after the bracket does not count. -/
def longBracket (src : Bytes) (level : Nat) (comment : Bool) (c : Cursor) : Except SyntaxError (Bytes × Cursor) :=
  let inside : Cursor := ⟨c.pos + level + 2, c.line⟩
  let start :=
    match src.get? inside.pos with
    | some b => if isNewline b then afterNewline src inside else inside
    | none => inside
  longText src level c.line comment start .empty (src.size + 1 - start.pos)

/-- Skips blanks, line ends and comments. -/
def skipBlanks (src : Bytes) (c : Cursor) : Nat → Except SyntaxError Cursor
  | 0 => .ok c
  | n + 1 =>
    match src.get? c.pos with
    | none => .ok c
    | some b =>
      if isNewline b then skipBlanks src (afterNewline src c) n
      else if b == 32 || b == 9 || b == 11 || b == 12 then
        skipBlanks src ⟨spanEnd src (fun b => b == 32 || b == 9) (c.pos + 1), c.line⟩ n
      else if b == 45 && src.at0 (c.pos + 1) == 45 && c.pos + 1 < src.size then
        let body := c.pos + 2
        let level := if src.get? body == some 91 then longBracketLevel? src body else none
        match level with
        | some level => do
          let (_, c) ← longBracket src level true ⟨body, c.line⟩
          skipBlanks src c n
        | none => skipBlanks src ⟨spanEnd src (fun b => !isNewline b) body, c.line⟩ n
      else .ok c

/-! ### Numbers -/

/-- The end of a numeral, from `pos` on: digits of any base, points, and exponent marks with an
optional sign. -/
def numeralEnd (src : Bytes) (isMark : UInt8 → Bool) (pos : Nat) : Nat → Nat
  | 0 => pos
  | n + 1 =>
    match src.get? pos with
    | none => pos
    | some b =>
      if isMark b then
        let next := src.get? (pos + 1)
        if next == some 43 || next == some 45 then numeralEnd src isMark (pos + 2) n
        else numeralEnd src isMark (pos + 1) n
      else if Numeral.isHexDigit b || b == 46 then numeralEnd src isMark (pos + 1) n
      else pos

/-- The numeral at a cursor. A letter right after it is taken as part of it, which spoils it. -/
def numeral (src : Bytes) (c : Cursor) : Except SyntaxError (Token × Cursor) :=
  let hexadecimal := src.at0 c.pos == 48 && Numeral.isHexMark (src.at0 (c.pos + 1))
  let isMark (b : UInt8) : Bool := if hexadecimal then b == 112 || b == 80 else b == 101 || b == 69
  let start := if hexadecimal then c.pos + 2 else c.pos + 1
  let stop := numeralEnd src isMark start (src.size - start)
  let stop := match src.get? stop with
    | some b => if isLetter b then stop + 1 else stop
    | none => stop
  let text := src.slice c.pos stop
  match Numeral.read? text with
  | some n => .ok (.number n text, ⟨stop, c.line⟩)
  | none => .error ⟨.malformedNumber, c.line, some (Token.quoted text)⟩

/-! ### Quoted strings -/

/-- The UTF-8 form of a code below `2^31`, with up to six bytes. -/
def encodeCode (code : Nat) : Bytes :=
  let tail (n : Nat) : UInt8 := UInt8.ofNat (0x80 + n % 64)
  let head (mark n : Nat) : UInt8 := UInt8.ofNat (mark + n)
  Bytes.ofList <|
    if code < 0x80 then [UInt8.ofNat code]
    else if code < 0x800 then [head 0xC0 (code >>> 6), tail code]
    else if code < 0x10000 then [head 0xE0 (code >>> 12), tail (code >>> 6), tail code]
    else if code < 0x200000 then
      [head 0xF0 (code >>> 18), tail (code >>> 12), tail (code >>> 6), tail code]
    else if code < 0x4000000 then
      [head 0xF8 (code >>> 24), tail (code >>> 18), tail (code >>> 12), tail (code >>> 6),
        tail code]
    else
      [head 0xFC (code >>> 30), tail (code >>> 24), tail (code >>> 18), tail (code >>> 12),
        tail (code >>> 6), tail code]

/-- Where in a quoted string an escape stands: what was read of the string before it, and the
position of its backslash. -/
structure EscapePlace where
  before : Bytes
  start : Nat
  line : Nat

/-- An error in an escape: the token near it runs up to the byte at `pos`, that byte included. -/
def escapeError {α : Type} (src : Bytes) (place : EscapePlace) (fault : SyntaxFault) (pos : Nat) :
    Except SyntaxError α :=
  .error ⟨fault, place.line, some (Token.quoted (place.before ++ src.slice place.start (pos + 1)))⟩

/-- The value of the hexadecimal digit at a position of an escape. -/
def escapeDigit (src : Bytes) (place : EscapePlace) (pos : Nat) : Except SyntaxError Nat :=
  match (src.get? pos).bind Bytes.hexValue? with
  | some d => .ok d
  | none => escapeError src place .hexDigitExpected pos

/-- The further digits of a code point in braces, from `pos` on. -/
def codeDigits (src : Bytes) (place : EscapePlace) (code pos : Nat) :
    Nat → Except SyntaxError (Nat × Nat)
  | 0 => .ok (code, pos)
  | n + 1 =>
    match (src.get? pos).bind Bytes.hexValue? with
    | none => .ok (code, pos)
    | some d =>
      if code > 0x7FFFFFF then escapeError src place .codePointTooLarge pos
      else codeDigits src place (code * 16 + d) (pos + 1) n

/-- The decimal digits of an escape, three at most. -/
def decimalDigits (src : Bytes) (value pos : Nat) : Nat → Nat × Nat
  | 0 => (value, pos)
  | n + 1 =>
    let b := src.at0 pos
    if Numeral.isDigit b then decimalDigits src (value * 10 + (b.toNat - 48)) (pos + 1) n
    else (value, pos)

/-- The position after blanks and line ends, with its line. -/
def skipAllBlanks (src : Bytes) (c : Cursor) : Nat → Cursor
  | 0 => c
  | n + 1 =>
    match src.get? c.pos with
    | none => c
    | some b =>
      if isNewline b then skipAllBlanks src (afterNewline src c) n
      else if Numeral.isSpace b then skipAllBlanks src ⟨c.pos + 1, c.line⟩ n
      else c

/-- The bytes of the escape whose backslash stands at the cursor, after `before`. -/
def escape (src : Bytes) (before : Bytes) (c : Cursor) : Except SyntaxError (Bytes × Cursor) := do
  let place : EscapePlace := ⟨before, c.pos, c.line⟩
  let one (b : UInt8) : Except SyntaxError (Bytes × Cursor) := .ok (before.push b, ⟨c.pos + 2, c.line⟩)
  match src.get? (c.pos + 1) with
  | none => .ok (before, ⟨c.pos + 1, c.line⟩)
  | some 97 => one 7
  | some 98 => one 8
  | some 102 => one 12
  | some 110 => one 10
  | some 114 => one 13
  | some 116 => one 9
  | some 118 => one 11
  | some 92 => one 92
  | some 34 => one 34
  | some 39 => one 39
  | some 120 =>
    let hi ← escapeDigit src place (c.pos + 2)
    let lo ← escapeDigit src place (c.pos + 3)
    .ok (before.push (UInt8.ofNat (hi * 16 + lo)), ⟨c.pos + 4, c.line⟩)
  | some 117 =>
    if src.get? (c.pos + 2) != some 123 then escapeError src place .leftBraceMissing (c.pos + 2)
    else
      let first ← escapeDigit src place (c.pos + 3)
      let (code, stop) ← codeDigits src place first (c.pos + 4) (src.size - c.pos)
      if src.get? stop != some 125 then escapeError src place .rightBraceMissing stop
      else .ok (before ++ encodeCode code, ⟨stop + 1, c.line⟩)
  | some 122 =>
    let start : Cursor := ⟨c.pos + 2, c.line⟩
    .ok (before, skipAllBlanks src start (src.size - start.pos))
  | some b =>
    if isNewline b then .ok (before.push 10, afterNewline src ⟨c.pos + 1, c.line⟩)
    else if Numeral.isDigit b then
      let (value, stop) := decimalDigits src 0 (c.pos + 1) 3
      if value > 255 then escapeError src place .decimalEscapeTooLarge stop
      else .ok (before.push (UInt8.ofNat value), ⟨stop, c.line⟩)
    else escapeError src place .badEscape (c.pos + 1)

/-- The rest of a quoted string. The text read so far begins with the quote. -/
def quotedText (src : Bytes) (quote : UInt8) (c : Cursor) (acc : Bytes) : Nat → Except SyntaxError (Bytes × Cursor)
  | 0 => .error ⟨.unfinishedString, c.line, some Token.eof.near⟩
  | n + 1 =>
    match src.get? c.pos with
    | none => .error ⟨.unfinishedString, c.line, some Token.eof.near⟩
    | some b =>
      if b == quote then .ok (acc, ⟨c.pos + 1, c.line⟩)
      else if isNewline b then .error ⟨.unfinishedString, c.line, some (Token.quoted acc)⟩
      else if b == 92 then do
        let (acc, c) ← escape src acc c
        quotedText src quote c acc n
      else quotedText src quote ⟨c.pos + 1, c.line⟩ (acc.push b) n

/-! ### Tokens -/

/-- A sign of the given length. -/
@[inline] def signToken (s : Symbol) (length : Nat) (c : Cursor) : Except SyntaxError (Token × Cursor) :=
  .ok (.sign s, ⟨c.pos + length, c.line⟩)

/-- A sign that gets longer if a certain byte follows. -/
@[inline] def longerSign (src : Bytes) (c : Cursor) (short : Symbol) (options : List (UInt8 × Symbol)) :
    Except SyntaxError (Token × Cursor) :=
  match options.find? fun o => src.get? (c.pos + 1) == some o.1 with
  | some o => signToken o.2 2 c
  | none => signToken short 1 c

/-- The token at a cursor that does not stand on a blank. -/
def tokenAt (src : Bytes) (c : Cursor) : Except SyntaxError (Token × Cursor) :=
  match src.get? c.pos with
  | none => .ok (.eof, c)
  | some b =>
    if isLetter b then
      let stop := spanEnd src isNameByte (c.pos + 1)
      let s := src.slice c.pos stop
      match Keyword.ofBytes? s with
      | some w => .ok (.word w, ⟨stop, c.line⟩)
      | none => .ok (.name s, ⟨stop, c.line⟩)
    else if Numeral.isDigit b then numeral src c
    else match b with
      | 34 | 39 => do
        let (text, after) ← quotedText src b ⟨c.pos + 1, c.line⟩ (Bytes.ofList [b]) (src.size - c.pos)
        let quote := Bytes.ofList [b]
        .ok (.string (text.dropFirst 1) quote quote, after)
      | 91 =>
        match longBracketLevel? src c.pos with
        | some level => do
          let (text, after) ← longBracket src level false c
          let bars := Bytes.replicate level 61
          .ok (.string text ("[".toUTF8 ++ bars ++ "[".toUTF8) ("]".toUTF8 ++ bars ++ "]".toUTF8), after)
        | none =>
          let stop := spanEnd src (· == 61) (c.pos + 1)
          if stop = c.pos + 1 then signToken .leftBracket 1 c
          else .error ⟨.badLongDelimiter, c.line, some (Token.quoted (src.slice c.pos stop))⟩
      | 46 =>
        if src.get? (c.pos + 1) == some 46 then
          if src.get? (c.pos + 2) == some 46 then signToken .dots 3 c else signToken .concat 2 c
        else if ((src.get? (c.pos + 1)).map Numeral.isDigit).getD false then numeral src c
        else signToken .dot 1 c
      | 61 => longerSign src c .assign [(61, .equal)]
      | 60 => longerSign src c .less [(61, .lessEqual), (60, .shiftLeft)]
      | 62 => longerSign src c .greater [(61, .greaterEqual), (62, .shiftRight)]
      | 47 => longerSign src c .slash [(47, .floorDiv)]
      | 126 => longerSign src c .tilde [(61, .notEqual)]
      | 58 => longerSign src c .colon [(58, .doubleColon)]
      | 43 => signToken .plus 1 c
      | 45 => signToken .minus 1 c
      | 42 => signToken .star 1 c
      | 37 => signToken .percent 1 c
      | 94 => signToken .caret 1 c
      | 35 => signToken .hash 1 c
      | 38 => signToken .amp 1 c
      | 124 => signToken .bar 1 c
      | 40 => signToken .leftParen 1 c
      | 41 => signToken .rightParen 1 c
      | 123 => signToken .leftBrace 1 c
      | 125 => signToken .rightBrace 1 c
      | 93 => signToken .rightBracket 1 c
      | 59 => signToken .semicolon 1 c
      | 44 => signToken .comma 1 c
      | _ => .ok (.other b, ⟨c.pos + 1, c.line⟩)

/-- The next token at a cursor. -/
def token (src : Bytes) (c : Cursor) : Except SyntaxError (Token × Cursor) := do
  let c ← skipBlanks src c (src.size + 1 - c.pos)
  tokenAt src c

end Lexer

end PixelHost.Lua
