/-!
# Double-precision numbers, exactly

A finite double is `± m · 2^e` with natural `m` and integer `e`. This module reads that form off
the bits, rounds an exact fraction to the nearest double, and derives from the two the operations
on doubles whose result is exact: the floor as an integer, conversion to 64-bit integers, the
remainder, and the comparison with an integer.

## Main definitions

* `Binary64.View`, `Binary64.view` — a double taken apart.
* `Binary64.ofRatio` — the double nearest to a fraction, a tie going to the even mantissa.
* `Binary64.floor?`, `Binary64.ceil?`, `Binary64.toInt64?` — exact integer values.
* `Binary64.remainder` — the remainder of truncated division, which is always a double.
* `Binary64.compareInt` — a double against an integer.
-/

namespace PixelHost.Binary64

/-- A double taken apart. A finite one is `m · 2^e`, negated if `negative`. -/
inductive View where
  | nan
  | infinite (negative : Bool)
  | finite (negative : Bool) (mantissa : Nat) (exponent : Int)
  deriving DecidableEq, Repr

/-- The double is negative, or the zero with a minus sign. -/
def signBit (x : Float) : Bool := x.toBits >>> 63 == 1

/-- Takes a double apart. -/
def view (x : Float) : View :=
  let bits := x.toBits.toNat
  let negative := signBit x
  let fraction := bits % (1 <<< 52)
  let field := (bits >>> 52) % 2048
  if field = 2047 then
    if fraction = 0 then .infinite negative else .nan
  else if field = 0 then .finite negative fraction (-1074)
  else .finite negative ((1 <<< 52) + fraction) (Int.ofNat field - 1075)

/-- The number of binary digits of a natural number, `0` for zero. -/
def bitLength (n : Nat) : Nat := if n = 0 then 0 else n.log2 + 1

/-- The quotient rounded to the nearest integer, a tie going to the even one. -/
def divRoundEven (num den : Nat) : Nat :=
  let q := num / den
  let r := num % den
  if 2 * r < den then q
  else if den < 2 * r then q + 1
  else if q % 2 = 0 then q else q + 1

/-- The double with sign `negative` and magnitude bits `magnitude`. -/
def ofMagnitude (negative : Bool) (magnitude : Nat) : Float :=
  Float.ofBits (UInt64.ofNat (if negative then (1 <<< 63) + magnitude else magnitude))

/-- The magnitude bits of `m · 2^e` for `m < 2^53` with `m ≥ 2^52` or `e = -1074`. -/
def magnitudeBits (m : Nat) (e : Int) : Nat :=
  if m < 1 <<< 52 then m
  else if e > 971 then 2047 <<< 52
  else ((e + 1074).toNat <<< 52) + m

/-- The double nearest to `num / den`, negated if `negative`; a tie goes to the even mantissa. -/
def ofRatio (negative : Bool) (num den : Nat) : Float :=
  if num = 0 ∨ den = 0 then ofMagnitude negative 0
  else
    -- The exponent that leaves 53 binary digits before the point, or one more.
    let e₀ : Int := Int.ofNat (bitLength num) - Int.ofNat (bitLength den) - 53
    let scaled (e : Int) : Nat × Nat :=
      if e ≥ 0 then (num, den <<< e.toNat) else (num <<< (-e).toNat, den)
    let whole (e : Int) : Nat := (scaled e).1 / (scaled e).2
    let e₁ := if whole e₀ ≥ 1 <<< 53 then e₀ + 1 else e₀
    let e := max e₁ (-1074)
    let m := divRoundEven (scaled e).1 (scaled e).2
    let (m, e) := if m ≥ 1 <<< 53 then (m / 2, e + 1) else (m, e)
    ofMagnitude negative (magnitudeBits m e)

/-- The double nearest to `m · 2^e`, negated if `negative`. -/
def ofScaled (negative : Bool) (m : Nat) (e : Int) : Float :=
  if m = 0 then ofMagnitude negative 0
  else if e > 1100 then ofMagnitude negative (2047 <<< 52)
  else if e + bitLength m < -1200 then ofMagnitude negative 0
  else if e ≥ 0 then ofRatio negative (m <<< e.toNat) 1
  else ofRatio negative m (1 <<< (-e).toNat)

/-- The double nearest to `m · 10^e`, negated if `negative`. -/
def ofDecimal (negative : Bool) (m : Nat) (e : Int) : Float :=
  if m = 0 then ofMagnitude negative 0
  else if e > 400 then ofMagnitude negative (2047 <<< 52)
  else if e < 0 ∧ e * 3 + bitLength m < -1200 then ofMagnitude negative 0
  else if e ≥ 0 then ofRatio negative (m * Nat.pow 10 e.toNat) 1
  else ofRatio negative m (Nat.pow 10 (-e).toNat)

/-- The floor of `± m · 2^e`. -/
def floorOf (negative : Bool) (m : Nat) (e : Int) : Int :=
  let signed : Int := if negative then -Int.ofNat m else Int.ofNat m
  if e ≥ 0 then signed * Nat.pow 2 e.toNat else Int.fdiv signed (Nat.pow 2 (-e).toNat)

/-- The largest integer that is at most the double, if the double is finite. -/
def floor? (x : Float) : Option Int :=
  match view x with
  | .finite negative m e => some (floorOf negative m e)
  | _ => none

/-- The least integer that is at least the double, if the double is finite. -/
def ceil? (x : Float) : Option Int :=
  match view x with
  | .finite negative m e => some (-floorOf (!negative) m e)
  | _ => none

/-- The integer that the double is, if it is one. -/
def toInt? (x : Float) : Option Int :=
  match floor? x with
  | some n => if ceil? x = some n then some n else none
  | none => none

/-- The integer fits 64 bits with sign. -/
def fitsInt64 (n : Int) : Bool := Int64.minValue.toInt ≤ n && n ≤ Int64.maxValue.toInt

/-- The integer as a 64-bit one, if it fits. -/
def int64? (n : Int) : Option Int64 := if fitsInt64 n then some (Int64.ofInt n) else none

/-- The 64-bit integer nearest to an integer. -/
def saturate (n : Int) : Int64 :=
  if n < Int64.minValue.toInt then Int64.minValue
  else if n > Int64.maxValue.toInt then Int64.maxValue
  else Int64.ofInt n

/-- The 64-bit integer that the double is, if it is one. -/
def toInt64? (x : Float) : Option Int64 :=
  -- Most doubles that are asked about are small whole numbers.
  let n := x.toInt64
  if n.toFloat == x && -0x20000000000000 ≤ n && n ≤ 0x20000000000000 then some n
  else (toInt? x).bind int64?

/-- The remainder of truncated division; it has the sign of `x` and is exact. -/
def remainder (x y : Float) : Float :=
  match view x, view y with
  | .finite nx mx ex, .finite _ my ey =>
    if my = 0 then 0.0 / 0.0
    else
      let e := min ex ey
      let a := mx <<< (ex - e).toNat
      let b := my <<< (ey - e).toNat
      ofScaled nx (a % b) e
  | .finite _ _ _, .infinite _ => x
  | _, _ => 0.0 / 0.0

/-- A finite double against an integer. -/
def compareFinite (negative : Bool) (m : Nat) (e : Int) (n : Int) : Ordering :=
  let signed : Int := if negative then -Int.ofNat m else Int.ofNat m
  if e ≥ 0 then compare (signed * Nat.pow 2 e.toNat) n
  else compare signed (n * Nat.pow 2 (-e).toNat)

/-- How a double compares with an integer; nothing if it is not a number. -/
def compareInt (x : Float) (n : Int) : Option Ordering :=
  match view x with
  | .nan => none
  | .infinite negative => some (if negative then .lt else .gt)
  | .finite negative m e => some (compareFinite negative m e n)

/-- The nearest integer, a tie going away from zero; nothing for infinities and not-a-number. -/
def roundAway? (x : Float) : Option Int :=
  match view x with
  | .finite negative m e =>
    let magnitude : Int :=
      if e ≥ 0 then Int.ofNat (m <<< e.toNat)
      else Int.ofNat ((2 * m + (1 <<< (-e).toNat)) >>> ((-e).toNat + 1))
    some (if negative then -magnitude else magnitude)
  | _ => none

end PixelHost.Binary64
