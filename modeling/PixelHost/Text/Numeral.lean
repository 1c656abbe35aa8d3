import PixelHost.Bytes
import PixelHost.Binary64

/-!
# Numerals

Reading a number from a byte string. A numeral is an integer or a double, in decimal or hexadecimal
notation, with blanks around it allowed. A decimal integer that does not fit 64 bits with sign is
read as a double; a hexadecimal integer wraps around.

## Main definitions

* `Numeral` — an integer or a double.
* `Numeral.integer?`, `Numeral.double?` — the two readings.
* `Numeral.read?` — the integer reading if there is one, else the double.
-/

namespace PixelHost

/-- The value of a numeral. -/
inductive Numeral where
  | int (n : Int64)
  | double (x : Float)
  deriving DecidableEq

namespace Numeral

/-- The byte is blank space. -/
@[inline] def isSpace (b : UInt8) : Bool := b == 32 || (9 ≤ b && b ≤ 13)

/-- The byte is a decimal digit. -/
@[inline] def isDigit (b : UInt8) : Bool := 48 ≤ b && b ≤ 57

/-- The byte is a hexadecimal digit. -/
@[inline] def isHexDigit (b : UInt8) : Bool := isDigit b || (97 ≤ b && b ≤ 102) || (65 ≤ b && b ≤ 70)

/-- The rest after the blanks at its front. -/
def skipSpace : List UInt8 → List UInt8
  | [] => []
  | b :: rest => if isSpace b then skipSpace rest else b :: rest

/-- The rest holds blanks only. -/
def onlySpace (s : List UInt8) : Bool := (skipSpace s).isEmpty

/-- The sign at the front, with the rest. -/
def takeSign : List UInt8 → Bool × List UInt8
  | 45 :: rest => (true, rest)
  | 43 :: rest => (false, rest)
  | s => (false, s)

/-- The number that the digits at the front spell in a base, how many there are, and the rest. -/
def takeDigits (base : Nat) (isOne : UInt8 → Bool) (acc count : Nat) :
    List UInt8 → Nat × Nat × List UInt8
  | [] => (acc, count, [])
  | b :: rest =>
    if isOne b then
      takeDigits base isOne (acc * base + (Bytes.hexValue? b).getD 0) (count + 1) rest
    else (acc, count, b :: rest)

/-- The letter that marks hexadecimal notation. -/
@[inline] def isHexMark (b : UInt8) : Bool := b == 120 || b == 88

/-- The digits after a hexadecimal mark `0x`, if the mark is there. -/
def afterHexMark? : List UInt8 → Option (List UInt8)
  | 48 :: x :: rest => if isHexMark x then some rest else none
  | _ => none

/-- The signed integer of a magnitude, wrapping around. -/
def wrapped (negative : Bool) (n : Nat) : Int64 :=
  let m := UInt64.toInt64 (UInt64.ofNat n)
  if negative then -m else m

/-- The integer that the string spells. -/
def integer? (s : List UInt8) : Option Int64 :=
  let (negative, s) := takeSign (skipSpace s)
  match afterHexMark? s with
  | some digits =>
    let (n, count, rest) := takeDigits 16 isHexDigit 0 0 digits
    if count = 0 || !onlySpace rest then none else some (wrapped negative n)
  | none =>
    let (n, count, rest) := takeDigits 10 isDigit 0 0 s
    if count = 0 || !onlySpace rest then none
    else if n < 1 <<< 63 || (negative && n == 1 <<< 63) then some (wrapped negative n)
    else none

/-- The exponent after one of two marks, with the rest; without digits the mark does not count. -/
def takeExponent (lower upper : UInt8) (s : List UInt8) : Int × List UInt8 :=
  match s with
  | b :: rest =>
    if b == lower || b == upper then
      let (negative, digits) := takeSign rest
      let (n, count, rest') := takeDigits 10 isDigit 0 0 digits
      if count = 0 then (0, s)
      else (if negative then -Int.ofNat n else Int.ofNat n, rest')
    else (0, s)
  | [] => (0, [])

/-- The digits of a mantissa with or without a point: their value, how many there are, how many
stand after the point, and the rest. -/
def takeMantissa (base : Nat) (isOne : UInt8 → Bool) (s : List UInt8) :
    Nat × Nat × Nat × List UInt8 :=
  let (whole, n, rest) := takeDigits base isOne 0 0 s
  match rest with
  | 46 :: fraction =>
    let (all, m, rest') := takeDigits base isOne whole 0 fraction
    if n + m = 0 then (0, 0, 0, s) else (all, n + m, m, rest')
  | _ => (whole, n, 0, rest)

/-- The double that the string spells. -/
def double? (s : List UInt8) : Option Float :=
  let (negative, s) := takeSign (skipSpace s)
  match afterHexMark? s with
  | some digits =>
    let (m, count, places, rest) := takeMantissa 16 isHexDigit digits
    if count = 0 then none
    else
      let (x, rest) := takeExponent 112 80 rest
      if onlySpace rest then some (Binary64.ofScaled negative m (x - 4 * Int.ofNat places)) else none
  | none =>
    let (m, count, places, rest) := takeMantissa 10 isDigit s
    if count = 0 then none
    else
      let (x, rest) := takeExponent 101 69 rest
      if onlySpace rest then some (Binary64.ofDecimal negative m (x - Int.ofNat places)) else none

/-- The number that the string spells: an integer if it spells one, else a double. -/
def read? (s : Bytes) : Option Numeral :=
  let digits := s.toList
  match integer? digits with
  | some n => some (.int n)
  | none => (double? digits).map .double

end Numeral

end PixelHost
