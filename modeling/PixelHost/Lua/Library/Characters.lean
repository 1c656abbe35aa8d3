import PixelHost.Lua.Lexer
import PixelHost.Lua.Library.Argument

/-!
# The utf8 library

The functions of `utf8`. A character is written in one to six bytes; the first one says how many,
and the others begin with the bits `10`. Unless it is asked for laxness, a character must be one of
Unicode and no surrogate.

## Main definitions

* `Lua.Library.Characters.decode?` — the character at a position.
* `Lua.Library.Characters.run` — carries out a function of `utf8`.
-/

namespace PixelHost.Lua.Library.Characters

open Run

/-- The byte continues a character. -/
def continues (b : UInt8) : Bool := b &&& 0xC0 == 0x80

/-- The least number that needs a count of continuing bytes. -/
def leastFor : Nat → Nat
  | 0 => 0x100000000
  | 1 => 0x80
  | 2 => 0x800
  | 3 => 0x10000
  | 4 => 0x200000
  | _ => 0x4000000

/-- Reads continuing bytes as long as the first byte `lead`, moved to the left, asks for them. -/
def takeContinuing (s : Bytes) (pos lead code count : Nat) : Nat → Option (Nat × Nat × Nat)
  | 0 => some (lead, code, count)
  | n + 1 =>
    if lead / 64 % 2 = 0 then some (lead, code, count)
    else
      let b := s.at0 (pos + count + 1)
      if continues b then
        takeContinuing s pos (lead * 2) (code * 64 + b.toNat % 64) (count + 1) n
      else none

/-- The character at a position and the position after it. -/
def decode? (s : Bytes) (pos : Nat) (lax : Bool) : Option (Nat × Nat) := do
  let first := (s.at0 pos).toNat
  let (code, count) ←
    if first < 0x80 then some (first, 0)
    else do
      let (lead, code, count) ← takeContinuing s pos first 0 0 7
      let code := code + ((lead % 128) <<< (count * 5))
      if count > 5 || code ≥ 0x80000000 || code < leastFor count then none else some (code, count)
  if !lax && (code > 0x10FFFF || (0xD800 ≤ code && code ≤ 0xDFFF)) then none
  else some (code, pos + count + 1)

/-- A position that may count from the end; `0` if it is before the text. -/
def position (i : Int64) (length : Nat) : Int :=
  if i ≥ 0 then i.toInt
  else if -i.toInt > Int.ofNat length then 0
  else Int.ofNat length + i.toInt + 1

/-- The message about bytes that are no character. -/
def invalid : String := "invalid UTF-8 code"

/-- The text of characters given by number. -/
def char (args : Args) : Run (Array Value) := do
  let parts ← (List.range args.size).mapM fun k => do
    let code ← args.integer (k + 1)
    Args.require (k + 1) (code.toUInt64 ≤ 0x7FFFFFFF) "value out of range"
    return Lexer.encodeCode code.toUInt64.toNat
  return #[← newString (parts.foldl (· ++ ·) .empty)]

/-- The numbers of the characters that begin between two positions. -/
def codesFrom (s : Bytes) (lax : Bool) (pos last : Nat) (acc : Array Value) :
    Nat → Run (Array Value)
  | 0 => return acc
  | n + 1 => do
    if pos < last then
      match decode? s pos lax with
      | none => fail invalid
      | some (code, next) => codesFrom s lax next last (acc.push (.ofNat code)) n
    else return acc

/-- The numbers of the characters in a part of a text. -/
def codepoint (args : Args) : Run (Array Value) := do
  let s ← args.string 1
  let first := position (← args.integerOr 2 1) s.size
  let last := position (← args.integerOr 3 (Int64.ofInt first)) s.size
  let lax := (args.val 4).truthy
  Args.require 2 (first ≥ 1) "out of bounds"
  Args.require 3 (last ≤ s.size) "out of bounds"
  if first > last then return #[]
  else codesFrom s lax (first.toNat - 1) last.toNat #[] (s.size + 1)

/-- The number of characters that begin between two positions, or the first position without one. -/
def countFrom (s : Bytes) (lax : Bool) (pos : Nat) (last : Int) (count : Nat) :
    Nat → Array Value
  | 0 => #[.ofNat count]
  | n + 1 =>
    if Int.ofNat pos ≤ last then
      match decode? s pos lax with
      | none => #[.nil, .ofNat (pos + 1)]
      | some (_, next) => countFrom s lax next last (count + 1) n
    else #[.ofNat count]

/-- The number of characters in a part of a text. -/
def len (args : Args) : Run (Array Value) := do
  let s ← args.string 1
  let first := position (← args.integerOr 2 1) s.size
  let last := position (← args.integerOr 3 (-1)) s.size
  let lax := (args.val 4).truthy
  Args.require 2 (1 ≤ first && first - 1 ≤ s.size) "initial position out of bounds"
  Args.require 3 (last - 1 < s.size) "final position out of bounds"
  return countFrom s lax (first.toNat - 1) (last - 1) 0 (s.size + 1)

/-- The beginning of the character that a position is in. -/
def beginningOf (s : Bytes) : Nat → Nat
  | 0 => 0
  | n + 1 => if continues (s.at0 (n + 1)) then beginningOf s n else n + 1

/-- The beginning of the next character. -/
def nextBeginning (s : Bytes) (pos : Nat) : Nat → Nat
  | 0 => pos
  | n + 1 => if continues (s.at0 pos) then nextBeginning s (pos + 1) n else pos

/-- Goes back some characters; gives how many could not be gone back. -/
def goBack (s : Bytes) (pos : Nat) : (count : Nat) → Nat × Nat
  | 0 => (pos, 0)
  | n + 1 => if pos > 0 then goBack s (beginningOf s (pos - 1)) n else (pos, n + 1)

/-- Goes on some characters; gives how many could not be gone on. -/
def goOn (s : Bytes) (pos : Nat) : (count : Nat) → Nat × Nat
  | 0 => (pos, 0)
  | n + 1 =>
    if pos < s.size then goOn s (nextBeginning s (pos + 1) (s.size + 1)) n else (pos, n + 1)

/-- The position where a character begins, counted from a position on. -/
def offset (args : Args) : Run (Array Value) := do
  let s ← args.string 1
  let n ← args.integer 2
  let start : Int64 := if n > 0 then 1 else Int64.ofNat (s.size + 1)
  let i := position (← args.integerOr 3 start) s.size
  Args.require 3 (1 ≤ i && i - 1 ≤ s.size) "position out of bounds"
  let pos := i.toNat - 1
  if n == 0 then return #[.ofNat (beginningOf s pos + 1)]
  else
    if continues (s.at0 pos) then fail "initial position is a continuation byte"
    -- No text has more characters than bytes.
    let steps := min (s.size + 1) (if n < 0 then (-n.toInt).toNat else n.toInt.toNat - 1)
    let (pos, left) := if n < 0 then goBack s pos steps else goOn s pos steps
    return if left == 0 then #[.ofNat (pos + 1)] else #[.nil]

/-- The next character of an iteration. -/
def characterStep (lax : Bool) (args : Args) : Run (Array Value) := do
  let s ← args.string 1
  let n := match args.val 2 with
    | .int i => i.toUInt64.toNat
    | _ => 0
  let pos := if n < s.size then nextBeginning s n (s.size + 1) else n
  if pos ≥ s.size then return #[]
  else
    match decode? s pos lax with
    | none => fail invalid
    | some (code, next) =>
      if continues (s.at0 next) then fail invalid
      return #[.ofNat (pos + 1), .ofNat code]

/-- Carries out a function of `utf8`. -/
def run (f : Utf8Fn) (args : Args) : Run (Array Value) := do
  match f with
  | .char => char args
  | .codepoint => codepoint args
  | .codes =>
    let s ← args.string 1
    Args.require 1 (!continues (s.at0 0)) invalid
    return #[.native (.characterStep (args.val 2).truthy), .str s, .int 0]
  | .len => len args
  | .offset => offset args

end PixelHost.Lua.Library.Characters
