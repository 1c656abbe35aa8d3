import PixelHost.Binary64

/-!
# Formatted numbers

The layouts in which a number is written under a conversion specification: fixed and scientific
decimal notation, the shorter of the two, hexadecimal notation with a binary exponent, and
integers. Every decimal digit is computed from the exact value of the double; the last one is
rounded to nearest, a tie going to the even digit.

## Main definitions

* `NumberFormat` — flags, width and precision of a conversion.
* `FloatFormat.fixed`, `FloatFormat.scientific`, `FloatFormat.general`, `FloatFormat.hexadecimal` —
  the digits of a finite magnitude.
* `NumberFormat.layOut` — sign, padding and width around the digits.
* `FloatFormat.write` — a double under a conversion.
-/

namespace PixelHost

/-- The flags, the width and the precision of a conversion specification. -/
structure NumberFormat where
  leftAlign : Bool := false
  plusSign : Bool := false
  spaceSign : Bool := false
  alternate : Bool := false
  zeroPad : Bool := false
  width : Nat := 0
  precision : Option Nat := none
  deriving DecidableEq, Repr, Inhabited

/-- The notations of a double. -/
inductive FloatNotation where
  | fixed
  | scientific
  | general
  | hexadecimal
  deriving DecidableEq, Repr

namespace NumberFormat

/-- The text `n` times in a row. -/
def repeatChar (c : Char) (n : Nat) : String := String.ofList (List.replicate n c)

/-- The sign that stands before a magnitude. -/
def sign (f : NumberFormat) (negative : Bool) : String :=
  if negative then "-" else if f.plusSign then "+" else if f.spaceSign then " " else ""

/-- The sign, the mark before the digits and the digits, filled up to the width: with zeros after
the mark if `zeros`, else with blanks on the side that the alignment leaves free. -/
def layOut (f : NumberFormat) (sign mark digits : String) (zeros : Bool) : String :=
  let size := sign.length + mark.length + digits.length
  let fill := f.width - size
  if f.leftAlign then sign ++ mark ++ digits ++ repeatChar ' ' fill
  else if zeros then sign ++ mark ++ repeatChar '0' fill ++ digits
  else repeatChar ' ' fill ++ sign ++ mark ++ digits

/-- A text under a width, cut to the precision. -/
def text (f : NumberFormat) (s : String) : String :=
  f.layOut "" "" s false

/-- The digits of an integer, filled with zeros up to the precision; none for zero under the
precision zero. -/
def integerDigits (f : NumberFormat) (digits : String) : String :=
  match f.precision with
  | none => digits
  | some p => if p = 0 && digits == "0" then "" else repeatChar '0' (p - digits.length) ++ digits

/-- A signed integer in decimal. -/
def signedInteger (f : NumberFormat) (n : Int) : String :=
  f.layOut (f.sign (n < 0)) "" (f.integerDigits (toString n.natAbs)) (f.zeroPad && f.precision.isNone)

/-- A natural number in a base of at most sixteen, with the mark of the base if it is asked for. -/
def unsignedInteger (f : NumberFormat) (base : Nat) (upper : Bool) (n : Nat) : String :=
  let digits := String.ofList (Nat.toDigits base n)
  let digits := if upper then digits.map Char.toUpper else digits
  let digits := f.integerDigits digits
  let mark := if f.alternate && base = 16 && n ≠ 0 then (if upper then "0X" else "0x") else ""
  let digits :=
    if f.alternate && base = 8 && !digits.startsWith "0" then "0" ++ digits else digits
  f.layOut "" mark digits (f.zeroPad && f.precision.isNone)

end NumberFormat

namespace FloatFormat

open NumberFormat (repeatChar)

/-- A magnitude `m · 2^e` as a fraction. -/
def ratio (m : Nat) (e : Int) : Nat × Nat :=
  if e ≥ 0 then (m <<< e.toNat, 1) else (m, 1 <<< (-e).toNat)

/-- `num / den · 10^k`, rounded to the nearest integer. -/
def scaledDigits (num den : Nat) (k : Int) : Nat :=
  if k ≥ 0 then Binary64.divRoundEven (num * Nat.pow 10 k.toNat) den
  else Binary64.divRoundEven num (den * Nat.pow 10 (-k).toNat)

/-- The number of decimal digits. -/
def digitCount (n : Nat) : Nat := (toString n).length

/-- The exponent of the leading decimal digit of `num / den`, for a fraction that is not zero. -/
def leadingExponent (num den : Nat) : Int :=
  let guess : Int := Int.ofNat (digitCount num) - Int.ofNat (digitCount den)
  -- The fraction is at least `10^guess`, or at least `10^(guess - 1)`.
  let reached := if guess ≥ 0 then num ≥ den * Nat.pow 10 guess.toNat
    else num * Nat.pow 10 (-guess).toNat ≥ den
  if reached then guess else guess - 1

/-- The digits before and after the point of a magnitude with `places` decimal places. -/
def fixed (m : Nat) (e : Int) (places : Nat) (keepPoint : Bool) : String :=
  let (num, den) := ratio m e
  let digits := toString (scaledDigits num den places)
  let digits := repeatChar '0' (places + 1 - digits.length) ++ digits
  let cut := digits.length - places
  let whole := String.ofList (digits.toList.take cut)
  let fraction := String.ofList (digits.toList.drop cut)
  if places = 0 then (if keepPoint then whole ++ "." else whole) else whole ++ "." ++ fraction

/-- The leading digits of a magnitude, `places + 1` of them, with the exponent of the first. -/
def leadingDigits (m : Nat) (e : Int) (places : Nat) : Nat × Int :=
  if m = 0 then (0, 0)
  else
    let (num, den) := ratio m e
    let x := leadingExponent num den
    let n := scaledDigits num den (Int.ofNat places - x)
    -- Rounding up can reach the next power of ten.
    if n ≥ Nat.pow 10 (places + 1) then (n / 10, x + 1) else (n, x)

/-- An exponent with its sign and at least two digits. -/
def exponentText (mark : String) (x : Int) : String :=
  let digits := toString x.natAbs
  mark ++ (if x < 0 then "-" else "+") ++ (if digits.length < 2 then "0" ++ digits else digits)

/-- Digits with a point after the first. -/
def pointed (digits : String) (keepPoint : Bool) : String :=
  match digits.toList with
  | [] => ""
  | [d] => if keepPoint then String.ofList [d, '.'] else String.ofList [d]
  | d :: rest => String.ofList (d :: '.' :: rest)

/-- One digit, the point, `places` digits and the exponent. -/
def scientific (m : Nat) (e : Int) (places : Nat) (keepPoint : Bool) (mark : String) : String :=
  let (n, x) := leadingDigits m e places
  let digits := toString n
  let digits := repeatChar '0' (places + 1 - digits.length) ++ digits
  pointed digits keepPoint ++ exponentText mark x

/-- The text without the zeros at its end, and without a point that is then last. -/
def stripZeros (s : String) : String :=
  if s.contains '.' then
    match s.toList.reverse.dropWhile (· == '0') with
    | '.' :: rest => String.ofList rest.reverse
    | rest => String.ofList rest.reverse
  else s

/-- The shorter notation for `precision` significant digits: positional if the exponent of the
leading digit is at least `-4` and below the precision, else scientific. Zeros at the end of the
fraction are left out unless they are asked for. -/
def general (m : Nat) (e : Int) (precision : Nat) (keepZeros : Bool) (mark : String) : String :=
  let p := if precision = 0 then 1 else precision
  let (n, x) := leadingDigits m e (p - 1)
  if x < -4 ∨ x ≥ Int.ofNat p then
    let digits := pointed (toString n) keepZeros
    (if keepZeros then digits else stripZeros digits) ++ exponentText mark x
  else
    let digits := fixed m e (Int.ofNat p - 1 - x).toNat keepZeros
    if keepZeros then digits else stripZeros digits

/-- The hexadecimal digits of a number below sixteen to the power of `count`. -/
def hexDigits (n count : Nat) : String :=
  let digits := String.ofList (Nat.toDigits 16 n)
  repeatChar '0' (count - digits.length) ++ digits

/-- The hexadecimal notation without the leading mark: one digit, the point, the fraction and the
binary exponent. Without a precision the zeros at the end of the fraction are left out. -/
def hexadecimal (m : Nat) (e : Int) (precision : Option Nat) (keepPoint : Bool) : String :=
  let x : Int := if m = 0 then 0 else e + 52
  let exponent := "p" ++ (if x < 0 then "-" else "+") ++ toString x.natAbs
  match precision with
  | none =>
    let whole := m >>> 52
    let fraction := ((hexDigits (m % (1 <<< 52)) 13).toList.reverse.dropWhile (· == '0')).reverse
    let point := if fraction.isEmpty && !keepPoint then "" else "."
    toString whole ++ point ++ String.ofList fraction ++ exponent
  | some p =>
    let n := if p ≥ 13 then m <<< (4 * (p - 13)) else Binary64.divRoundEven m (1 <<< (4 * (13 - p)))
    let whole := n >>> (4 * p)
    let fraction := if p = 0 then "" else hexDigits (n % (1 <<< (4 * p))) p
    let point := if p = 0 && !keepPoint then "" else "."
    toString whole ++ point ++ fraction ++ exponent

/-- A double under a conversion, in lower case. -/
def writeLower (f : NumberFormat) (kind : FloatNotation) (x : Float) : String :=
  match Binary64.view x with
  -- An operation without a value leaves the not-a-number whose sign bit is set.
  | .nan => f.layOut "-" "" "nan" false
  | .infinite negative => f.layOut (f.sign negative) "" "inf" false
  | .finite negative m e =>
    let sign := f.sign negative
    match kind with
    | .fixed => f.layOut sign "" (fixed m e (f.precision.getD 6) f.alternate) f.zeroPad
    | .scientific => f.layOut sign "" (scientific m e (f.precision.getD 6) f.alternate "e") f.zeroPad
    | .general => f.layOut sign "" (general m e (f.precision.getD 6) f.alternate "e") f.zeroPad
    | .hexadecimal => f.layOut sign "0x" (hexadecimal m e f.precision f.alternate) f.zeroPad

/-- A double under a conversion. -/
def write (f : NumberFormat) (kind : FloatNotation) (upper : Bool) (x : Float) : String :=
  let s := writeLower f kind x
  if upper then s.map Char.toUpper else s

/-- Fourteen significant digits. -/
def shortest14 (x : Float) : String :=
  writeLower { precision := some 14 } .general x

end FloatFormat

end PixelHost
