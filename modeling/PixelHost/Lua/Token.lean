import PixelHost.Bytes
import PixelHost.Text.Numeral

/-!
# Tokens

The words and signs of the script language, and how a token is named in an error message.

## Main definitions

* `Lua.Keyword`, `Lua.Symbol`, `Lua.Token`.
* `Lua.Token.spelling` — how a kind of token is named when it is expected.
* `Lua.Token.near` — how a token that was read is named.
-/

namespace PixelHost.Lua

/-- The reserved words. -/
inductive Keyword where
  | and | break | do | else | elseif | end | false | for | function | goto | if | in | local | nil
  | not | or | repeat | return | then | true | until | while
  deriving DecidableEq, Repr, Inhabited

namespace Keyword

/-- The letters of a reserved word. -/
def text : Keyword → String
  | .and => "and" | .break => "break" | .do => "do" | .else => "else" | .elseif => "elseif"
  | .end => "end" | .false => "false" | .for => "for" | .function => "function" | .goto => "goto"
  | .if => "if" | .in => "in" | .local => "local" | .nil => "nil" | .not => "not" | .or => "or"
  | .repeat => "repeat" | .return => "return" | .then => "then" | .true => "true"
  | .until => "until" | .while => "while"

/-- All reserved words. -/
def all : List Keyword :=
  [.and, .break, .do, .else, .elseif, .end, .false, .for, .function, .goto, .if, .in, .local, .nil,
    .not, .or, .repeat, .return, .then, .true, .until, .while]

/-- The reserved words with their bytes. -/
def table : List (Bytes × Keyword) := all.map fun w => (w.text.toUTF8, w)

/-- The reserved word that the bytes spell, if they spell one. -/
def ofBytes? (s : Bytes) : Option Keyword :=
  if s.size < 2 ∨ 8 < s.size then none else (table.find? (·.1 == s)).map (·.2)

end Keyword

/-- The signs of the language. -/
inductive Symbol where
  | plus | minus | star | slash | percent | caret | hash | amp | tilde | bar | less | greater
  | assign | leftParen | rightParen | leftBrace | rightBrace | leftBracket | rightBracket
  | semicolon | colon | comma | dot | floorDiv | concat | dots | equal | greaterEqual | lessEqual
  | notEqual | shiftLeft | shiftRight | doubleColon
  deriving DecidableEq, Repr, Inhabited

/-- The characters of a sign. -/
def Symbol.text : Symbol → String
  | .plus => "+" | .minus => "-" | .star => "*" | .slash => "/" | .percent => "%" | .caret => "^"
  | .hash => "#" | .amp => "&" | .tilde => "~" | .bar => "|" | .less => "<" | .greater => ">"
  | .assign => "=" | .leftParen => "(" | .rightParen => ")" | .leftBrace => "\x7b"
  | .rightBrace => "\x7d" | .leftBracket => "[" | .rightBracket => "]" | .semicolon => ";"
  | .colon => ":" | .comma => "," | .dot => "." | .floorDiv => "//" | .concat => ".."
  | .dots => "..." | .equal => "==" | .greaterEqual => ">=" | .lessEqual => "<="
  | .notEqual => "~=" | .shiftLeft => "<<" | .shiftRight => ">>" | .doubleColon => "::"

/-- A token. A string keeps the delimiters it was written with, a number its digits. -/
inductive Token where
  | eof
  | name (s : Bytes)
  | string (s : Bytes) (opening closing : Bytes)
  | number (n : Numeral) (text : Bytes)
  | word (w : Keyword)
  | sign (s : Symbol)
  | other (b : UInt8)
  deriving DecidableEq

namespace Token

instance : Inhabited Token := ⟨.eof⟩

/-- A byte string between single quotes, up to its first zero byte. -/
def quoted (s : Bytes) : Bytes := "'".toUTF8 ++ s.untilZero ++ "'".toUTF8

/-- A byte as an error message names it: itself if it can be printed, else its code. -/
def byteName (b : UInt8) : Bytes :=
  if 32 ≤ b ∧ b ≤ 126 then quoted (Bytes.ofList [b])
  else "'<\\".toUTF8 ++ (toString b.toNat).toUTF8 ++ ">'".toUTF8

/-- How a kind of token is named when it is expected. -/
def spelling : Token → Bytes
  | .eof => "<eof>".toUTF8
  | .name _ => "<name>".toUTF8
  | .string _ _ _ => "<string>".toUTF8
  | .number _ _ => "<number>".toUTF8
  | .word w => quoted w.text.toUTF8
  | .sign s => quoted s.text.toUTF8
  | .other b => byteName b

/-- How a token that was read is named. -/
def near : Token → Bytes
  | .name s => quoted s
  | .string s opening closing => quoted (opening ++ s ++ closing)
  | .number _ text => quoted text
  | t => t.spelling

end Token

end PixelHost.Lua
