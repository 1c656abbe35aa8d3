import PixelHost.Binary64

/-!
# Numbers of light effects

The arithmetic that light effects are computed with. The effects are written once for any such
numbers: on doubles they give the colors that are shown, on rationals the exact values that the
colors approximate.

## Main definitions

* `Effect.Scalar` — numbers with rounding.
* `Effect.Scalar.toByte` — the color value nearest to a number.
-/

namespace PixelHost.Effect

/-- Numbers with rounding. -/
class Scalar (α : Type) extends Add α, Sub α, Mul α, Div α, Neg α where
  /-- The number nearest to an integer. -/
  ofInt : Int → α
  /-- The greatest integer that is not above a number, as a number. -/
  floor : α → α
  /-- How far a number is above the greatest integer that is not above it. -/
  fraction : α → α
  /-- The nearest integer; of two, the one further from zero. -/
  round : α → α
  /-- A number, or the end of a range if it lies beyond that end. -/
  clamp : α → α → α → α
  /-- The integer part, or the end of the range of 64-bit integers if it lies beyond that end. -/
  toInt : α → Int64
  /-- The integer part as a position in a list, or zero if it is negative. -/
  toIndex : α → Nat

namespace Scalar

instance : Scalar Float where
  ofInt := Float.ofInt
  floor := Float.floor
  fraction x :=
    let r := x - (if x < 0 then x.ceil else x.floor)
    if r < 0 then r + 1 else r
  round := Float.round
  clamp low high x := if x < low then low else if x > high then high else x
  toInt := Float.toInt64
  toIndex x := x.toUInt64.toNat

instance : Scalar Rat where
  ofInt n := n
  floor x := x.floor
  fraction x := x - x.floor
  round x := if x < 0 then -((-x + 1 / 2).floor : Rat) else ((x + 1 / 2).floor : Rat)
  clamp low high x := if x < low then low else if x > high then high else x
  toInt x := Binary64.saturate (if x < 0 then x.ceil else x.floor)
  toIndex x := x.floor.toNat

variable {α : Type} [Scalar α]

/-- The color value nearest to a number. -/
def toByte (x : α) : Int64 := toInt (clamp (ofInt 0) (ofInt 255) (round x))

end Scalar

end PixelHost.Effect
