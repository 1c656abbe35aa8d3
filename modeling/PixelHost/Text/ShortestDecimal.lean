import PixelHost.Text.FloatFormat

/-!
# Shortest decimals

The decimal with the fewest digits that reads back as a double, and its text.

## Main definitions

* `ShortestDecimal.digits` — the digits and the exponent.
* `ShortestDecimal.text` — the text: positional for moderate exponents, with a point in any case.
* `ShortestDecimal.positional` — the text without an exponent.
-/

namespace PixelHost.ShortestDecimal

open FloatFormat

/-- The integers next to `num / den · 10^k`: the one that is not above, and the one after it. -/
def neighbours (num den : Nat) (k : Int) : Nat × Nat :=
  let q := if k ≥ 0 then num * Nat.pow 10 k.toNat / den else num / (den * Nat.pow 10 (-k).toNat)
  (q, q + 1)

/-- The distance from `n` to `num / den · 10^k`, on a scale that depends on `k` only. -/
def distance (num den : Nat) (k : Int) (n : Nat) : Nat :=
  let (a, b) := if k ≥ 0 then (num * Nat.pow 10 k.toNat, n * den)
    else (num, n * (den * Nat.pow 10 (-k).toNat))
  (a - b) + (b - a)

/-- The digits `n` and the exponent `k` of the shortest decimal `n · 10^(-k)`, from `count` digits
on. -/
def search (x : Float) (num den : Nat) (lead : Int) (count : Nat) : Nat → Nat × Int
  | 0 => (scaledDigits num den (16 - lead), 16 - lead)
  | steps + 1 =>
    let k := Int.ofNat count - 1 - lead
    let (low, high) := neighbours num den k
    let reads (n : Nat) : Bool := (Binary64.ofDecimal false n (-k)).toBits == x.toBits
    match reads low, reads high with
    | true, true => (if distance num den k high < distance num den k low then high else low, k)
    | true, false => (low, k)
    | false, true => (high, k)
    | false, false => search x num den lead (count + 1) steps

/-- The digits without the zeros at their end, and the exponent. -/
def stripped (n : Nat) (k : Int) : Nat → Nat × Int
  | 0 => (n, k)
  | steps + 1 => if n % 10 = 0 ∧ n ≠ 0 then stripped (n / 10) (k - 1) steps else (n, k)

/-- The digits `n` and the exponent `e` of the shortest decimal `n · 10^e` of the magnitude of a
double. -/
def digits (x : Float) : Nat × Int :=
  match Binary64.view x with
  | .finite _ m e =>
    if m = 0 then (0, 0)
    else
      let (num, den) := ratio m e
      let (n, k) := search x.abs num den (leadingExponent num den) 1 17
      let (n, k) := stripped n k 20
      (n, -k)
  | _ => (0, 0)

/-- The text of a finite double. Exponents from -5 to 15 are written positionally. -/
def text (x : Float) : String :=
  let sign := if Binary64.signBit x then "-" else ""
  let (n, e) := digits x
  let s := toString n
  let point := Int.ofNat s.length + e
  let zeros (n : Int) : String := NumberFormat.repeatChar '0' n.toNat
  if n = 0 then sign ++ "0.0"
  else if e ≥ 0 ∧ point ≤ 16 then sign ++ s ++ zeros e ++ ".0"
  else if 0 < point ∧ point ≤ 16 then
    sign ++ (s.take point.toNat).toString ++ "." ++ (s.drop point.toNat).toString
  else if -5 < point ∧ point ≤ 0 then sign ++ "0." ++ zeros (-point) ++ s
  else if s.length = 1 then sign ++ s ++ "e" ++ toString (point - 1)
  else
    sign ++ (s.take 1).toString ++ "." ++ (s.drop 1).toString ++ "e" ++ toString (point - 1)

/-- The text of a double without an exponent. A whole number is written with one place. -/
def positional (x : Float) : String :=
  match Binary64.view x with
  | .nan => "NaN"
  | .infinite negative => if negative then "-inf" else "inf"
  | .finite negative _ _ =>
    let sign := if negative then "-" else ""
    let (n, e) := digits x
    let s := toString n
    let point := Int.ofNat s.length + e
    let zeros (n : Int) : String := NumberFormat.repeatChar '0' n.toNat
    if e ≥ 0 then sign ++ s ++ zeros e ++ ".0"
    else if 0 < point then
      sign ++ (s.take point.toNat).toString ++ "." ++ (s.drop point.toNat).toString
    else sign ++ "0." ++ zeros (-point) ++ s

end PixelHost.ShortestDecimal
