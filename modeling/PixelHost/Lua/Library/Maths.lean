import PixelHost.Lua.Library.Argument

/-!
# The math library

The functions of `math`. Those that give whole numbers give an integer where it fits.

## Main definitions

* `Lua.Library.Maths.run` — carries out a function of `math`.
* `Lua.Library.Maths.nextRandom` — the generator of random numbers.
-/

namespace PixelHost.Lua.Library.Maths

open Run

/-- The ratio of a circle to its diameter. -/
def pi : Float := 3.141592653589793238462643383279502884

/-- A whole double as an integer if it fits, else as it is. -/
def wholeValue (n : Option Int) (x : Float) : Value :=
  match n.bind Binary64.int64? with
  | some i => .int i
  | none => .num x

/-- The fraction and the exponent of a double: the fraction is at least a half and below one. -/
def fractionExponent (x : Float) : Float × Int :=
  match Binary64.view x with
  | .finite negative m e =>
    if m = 0 then (x, 0)
    else
      let digits : Nat := Binary64.bitLength m
      (Binary64.ofScaled negative m (-Int.ofNat digits), e + digits)
  | _ => (x, 0)

/-- A double times a power of two. -/
def scaled (x : Float) (n : Int) : Float :=
  match Binary64.view x with
  | .finite negative m e => Binary64.ofScaled negative m (e + n)
  | _ => x

/-! ### Random numbers -/

/-- A word turned around to the left. -/
def rotateLeft (x : UInt64) (n : UInt64) : UInt64 := (x <<< n) ||| (x >>> (64 - n))

/-- The next random word and the state after it. -/
def advance (s : UInt64 × UInt64 × UInt64 × UInt64) :
    UInt64 × (UInt64 × UInt64 × UInt64 × UInt64) :=
  let (s₀, s₁, s₂, s₃) := s
  let s₂' := s₂ ^^^ s₀
  let s₃' := s₃ ^^^ s₁
  let word := rotateLeft (s₁ * 5) 7 * 9
  (word, s₀ ^^^ s₃', s₁ ^^^ s₂', s₂' ^^^ (s₁ <<< 17), rotateLeft s₃' 45)

/-- The next random word. -/
def nextRandom : Run UInt64 := do
  let (word, random) := advance (← get).random
  modify fun m => { m with random }
  return word

/-- The next random word that is at most a bound, trying words cut to the bits of the bound. -/
def boundedRandom (bound : UInt64) (word : UInt64) : Nat → Run UInt64
  | 0 => return word % (bound + 1)
  | n + 1 => do
    let mask := UInt64.ofNat ((1 <<< Binary64.bitLength bound.toNat) - 1)
    if word &&& mask ≤ bound then return word &&& mask
    else boundedRandom bound (← nextRandom) n

/-- A random number. -/
def random (args : Args) : Run (Array Value) := do
  let word ← nextRandom
  let between (low high : Int64) : Run (Array Value) := do
    Args.require 1 (low ≤ high) "interval is empty"
    let offset ← boundedRandom (high.toUInt64 - low.toUInt64) word 1000
    return #[.int (low + offset.toInt64)]
  match args.size with
  | 0 => return #[.num ((word >>> 11).toFloat * Binary64.ofScaled false 1 (-53))]
  | 1 =>
    let high ← args.integer 1
    if high == 0 then return #[.int word.toInt64] else between 1 high
  | 2 => between (← args.integer 1) (← args.integer 2)
  | _ => fail "wrong number of arguments"

/-- Sets the state of the generator from two numbers. -/
def seed (a b : UInt64) : Run Unit := do
  modify fun m => { m with random := (a, 0xff, b, 0) }
  for _ in [0:16] do discard nextRandom

/-! ### Functions -/

/-- A function of one double. -/
def ofDouble (args : Args) (f : Float → Float) : Run (Array Value) := do
  return #[.num (f (← args.number 1))]

/-- The greatest or least argument. -/
def extreme (c : Caller) (args : Args) (greatest : Bool) : Run (Array Value) := do
  Args.require 1 (args.size ≥ 1) "number expected, got no value"
  discard (args.numeral 1)
  let mut best := args.val 1
  for i in [1:args.size] do
    discard (args.numeral (i + 1))
    let v := args.val (i + 1)
    let better ← if greatest then c.holds .less best v else c.holds .less v best
    if better then best := v
  return #[best]

/-- The remainder of truncated division. -/
def fmod (args : Args) : Run (Array Value) := do
  match args.val 1, args.val 2 with
  | .int m, .int d =>
    Args.require 2 (d != 0) "zero"
    return #[.int (if d == -1 then 0 else m % d)]
  | _, _ => return #[.num (Binary64.remainder (← args.number 1) (← args.number 2))]

/-- The logarithm to a base. -/
def logarithm (args : Args) : Run (Array Value) := do
  let x ← args.number 1
  if args.isNone 2 then return #[.num x.log]
  else
    let base ← args.number 2
    if base == 2.0 then return #[.num x.log2]
    else if base == 10.0 then return #[.num x.log10]
    else return #[.num (x.log / base.log)]

/-- Carries out a function of `math`. -/
def run (c : Caller) (f : MathFn) (args : Args) : Run (Array Value) := do
  match f with
  | .abs =>
    match args.val 1 with
    | .int n => return #[.int (if n < 0 then -n else n)]
    | _ => ofDouble args Float.abs
  | .acos => ofDouble args Float.acos
  | .asin => ofDouble args Float.asin
  | .atan => return #[.num (Float.atan2 (← args.number 1) (← args.numberOr 2 1))]
  | .ceil =>
    match args.val 1 with
    | .int n => return #[.int n]
    | _ =>
      let x ← args.number 1
      return #[wholeValue (Binary64.ceil? x) x.ceil]
  | .cos => ofDouble args Float.cos
  | .cosh => ofDouble args Float.cosh
  | .deg => ofDouble args fun x => x * (180.0 / pi)
  | .exp => ofDouble args Float.exp
  | .floor =>
    match args.val 1 with
    | .int n => return #[.int n]
    | _ =>
      let x ← args.number 1
      return #[wholeValue (Binary64.floor? x) x.floor]
  | .fmod => fmod args
  | .frexp =>
    let (x, e) := fractionExponent (← args.number 1)
    return #[.num x, .int (Int64.ofInt e)]
  | .ldexp =>
    let x ← args.number 1
    return #[.num (scaled x (← args.integer 2).toInt)]
  | .log => logarithm args
  | .log10 => ofDouble args Float.log10
  | .max => extreme c args true
  | .min => extreme c args false
  | .modf =>
    match args.val 1 with
    | .int n => return #[.int n, .num 0.0]
    | _ =>
      let x ← args.number 1
      let whole := if x < 0 then x.ceil else x.floor
      let n := if x < 0 then Binary64.ceil? x else Binary64.floor? x
      return #[wholeValue n whole, .num (if x == whole then 0.0 else x - whole)]
  | .pow => return #[.num (Float.pow (← args.number 1) (← args.number 2))]
  | .rad => ofDouble args fun x => x * (pi / 180.0)
  | .random => random args
  | .randomseed =>
    if args.size = 0 then seed (← nextRandom) 0
    else
      let a ← match args.val 1 with
        | .int n => pure n.toUInt64
        | _ =>
          let x ← args.number 1
          pure (match Binary64.toInt64? x with
            | some n => n.toUInt64
            | none => x.toBits)
      seed a (← args.integerOr 2 0).toUInt64
    return #[]
  | .sin => ofDouble args Float.sin
  | .sinh => ofDouble args Float.sinh
  | .sqrt => ofDouble args Float.sqrt
  | .tan => ofDouble args Float.tan
  | .tanh => ofDouble args Float.tanh
  | .tointeger =>
    match (← args.any 1).asNumeral?.bind Arith.toInt64? with
    | some n => return #[.int n]
    | none => return #[.nil]
  | .type =>
    match ← args.any 1 with
    | .int _ => return #[.ofString "integer"]
    | .num _ => return #[.ofString "float"]
    | _ => return #[.nil]
  | .ult => return #[.bool ((← args.integer 1).toUInt64 < (← args.integer 2).toUInt64)]

end PixelHost.Lua.Library.Maths
