import PixelHost.Lua.Token

/-!
# Errors in a source text

Every way in which a source text can fail to be a program, with its wording. The message names the
chunk, the line and, for most causes, the token at which reading stopped.

## Main definitions

* `Lua.SyntaxFault` — the cause.
* `Lua.SyntaxError` — a cause with its line and the token near it.
* `Lua.SyntaxError.message` — the complete message.
* `Lua.chunkTitle` — how a chunk is named in messages.
-/

namespace PixelHost.Lua

/-- Where a limit of the language was passed. -/
inductive FunctionPlace where
  | main
  | definedAt (line : Nat)
  deriving DecidableEq, Repr

/-- Why a source text is not a program. -/
inductive SyntaxFault where
  | unexpectedSymbol
  | noStatement
  | expected (what : Token)
  | expectedToClose (what opener : Token) (line : Nat)
  | nameOrDotsExpected
  | assignOrInExpected
  | argumentsExpected
  | varargOutside
  | malformedNumber
  | unfinishedString
  | unfinishedLong (comment : Bool) (line : Nat)
  | badLongDelimiter
  | badEscape
  | hexDigitExpected
  | leftBraceMissing
  | rightBraceMissing
  | codePointTooLarge
  | decimalEscapeTooLarge
  | tooManyLines
  | unknownAttribute (name : Bytes)
  | severalToClose
  | assignToConst (name : Bytes)
  | labelRepeated (name : Bytes) (line : Nat)
  | labelMissing (name : Bytes) (line : Nat)
  | breakOutsideLoop (line : Nat)
  | jumpIntoScope (label : Bytes) (line : Nat) (variableName : Bytes)
  | tooMany (what : String) (limit : Nat) (place : FunctionPlace)
  | tooManyRegisters
  | nestedTooDeep
  deriving DecidableEq

/-- The words for the place of a limit. -/
def FunctionPlace.text : FunctionPlace → String
  | .main => "main function"
  | .definedAt line => s!"function at line {line}"

namespace SyntaxFault

/-- The wording of a cause. -/
def message : SyntaxFault → Bytes
  | .unexpectedSymbol => "unexpected symbol".toUTF8
  | .noStatement => "syntax error".toUTF8
  | .expected what => what.spelling ++ " expected".toUTF8
  | .expectedToClose what opener line =>
    what.spelling ++ " expected (to close ".toUTF8 ++ opener.spelling ++ s!" at line {line})".toUTF8
  | .nameOrDotsExpected => "<name> or '...' expected".toUTF8
  | .assignOrInExpected => "'=' or 'in' expected".toUTF8
  | .argumentsExpected => "function arguments expected".toUTF8
  | .varargOutside => "cannot use '...' outside a vararg function".toUTF8
  | .malformedNumber => "malformed number".toUTF8
  | .unfinishedString => "unfinished string".toUTF8
  | .unfinishedLong comment line =>
    let what := if comment then "comment" else "string"
    s!"unfinished long {what} (starting at line {line})".toUTF8
  | .badLongDelimiter => "invalid long string delimiter".toUTF8
  | .badEscape => "invalid escape sequence".toUTF8
  | .hexDigitExpected => "hexadecimal digit expected".toUTF8
  | .leftBraceMissing => "missing '\x7b'".toUTF8
  | .rightBraceMissing => "missing '\x7d'".toUTF8
  | .codePointTooLarge => "UTF-8 value too large".toUTF8
  | .decimalEscapeTooLarge => "decimal escape too large".toUTF8
  | .tooManyLines => "chunk has too many lines".toUTF8
  | .unknownAttribute name => "unknown attribute ".toUTF8 ++ Token.quoted name
  | .severalToClose => "multiple to-be-closed variables in local list".toUTF8
  | .assignToConst name => "attempt to assign to const variable ".toUTF8 ++ Token.quoted name
  | .labelRepeated name line =>
    "label ".toUTF8 ++ Token.quoted name ++ s!" already defined on line {line}".toUTF8
  | .labelMissing name line =>
    "no visible label ".toUTF8 ++ Token.quoted name ++ s!" for <goto> at line {line}".toUTF8
  | .breakOutsideLoop line => s!"break outside loop at line {line}".toUTF8
  | .jumpIntoScope label line variableName =>
    "<goto ".toUTF8 ++ label ++ s!"> at line {line} jumps into the scope of local ".toUTF8 ++
      Token.quoted variableName
  | .tooMany what limit place => s!"too many {what} (limit is {limit}) in {place.text}".toUTF8
  | .tooManyRegisters => "function or expression needs too many registers".toUTF8
  | .nestedTooDeep => "C stack overflow".toUTF8

end SyntaxFault

/-- The longest name of a chunk in messages. -/
def titleLimit : Nat := 59

/-- How a chunk is named in messages. A name that begins with `=` or `@` stands for itself; any
other is a source text, of which the first line is shown in brackets. -/
def chunkTitle (name : Bytes) : Bytes :=
  match name.get? 0 with
  | some 61 => name.slice 1 (min name.size (titleLimit + 1))
  | some 64 =>
    if name.size ≤ titleLimit + 1 then name.dropFirst 1
    else "...".toUTF8 ++ name.dropFirst (name.size - (titleLimit - 3))
  | _ =>
    let line := name.slice 0 ((name.findByte? 10 0).getD name.size)
    -- The words around the line take fourteen characters, those of a cut among them.
    let room := titleLimit - 14
    let whole := line.size == name.size && line.size < room
    let shown := if whole then line else line.slice 0 (min line.size room) ++ "...".toUTF8
    "[string \"".toUTF8 ++ shown ++ "\"]".toUTF8

/-- A fault in a source text, with its line and the name of the token near it. -/
structure SyntaxError where
  fault : SyntaxFault
  line : Nat
  near : Option Bytes := none

/-- The complete message for a chunk of a given name. Running out of nesting is not a matter of one
line, so its message names no place. -/
def SyntaxError.message (e : SyntaxError) (chunk : Bytes) : Bytes :=
  if e.fault = .nestedTooDeep then e.fault.message
  else
    let text := chunkTitle chunk ++ ":".toUTF8 ++ (toString e.line).toUTF8 ++ ": ".toUTF8 ++
      e.fault.message
    match e.near with
    | some t => text ++ " near ".toUTF8 ++ t
    | none => text

end PixelHost.Lua
