import PixelHost.Effect.Scalar

/-!
# Gradient noise

A smooth irregular function of two coordinates. Every point of the integer lattice has a slope in
one of eight directions; between the points of a cell the slopes are blended.

## Main definitions

* `Effect.latticeHash` — the number from which the slope of a lattice point is taken.
* `Effect.noiseInCell` — the blended slopes at an offset within a cell.
* `Effect.noise` — the noise at two coordinates.
-/

namespace PixelHost.Effect

open Scalar

/-- Mixes the coordinates of a lattice point. -/
def latticeHash (x y : Int64) : UInt64 :=
  let h := (x.toUInt64 * 0x9E3779B97F4A7C15) ^^^ (y.toUInt64 * 0xC2B2AE3D27D4EB4F)
  let h := (h ^^^ (h >>> 29)) * 0xBF58476D1CE4E5B9
  h ^^^ (h >>> 32)

variable {α : Type} [Scalar α]

/-- The rise along one of eight slopes for an offset. -/
def rise (hash : UInt64) (dx dy : α) : α :=
  match (hash &&& 7).toNat with
  | 0 => dx + dy
  | 1 => dx - dy
  | 2 => -dx + dy
  | 3 => -dx - dy
  | 4 => dx
  | 5 => -dx
  | 6 => dy
  | _ => -dy

/-- A curve from zero to one that is flat at both ends. -/
def fade (t : α) : α := t * t * t * (t * (t * ofInt 6 - ofInt 15) + ofInt 10)

/-- The blended slopes at an offset within the cell of a lattice point. The lattice wraps around. -/
def noiseInCell (x y : Int64) (dx dy : α) : α :=
  let one : α := ofInt 1
  let n00 := rise (latticeHash x y) dx dy
  let n10 := rise (latticeHash (x + 1) y) (dx - one) dy
  let n01 := rise (latticeHash x (y + 1)) dx (dy - one)
  let n11 := rise (latticeHash (x + 1) (y + 1)) (dx - one) (dy - one)
  let u := fade dx
  let v := fade dy
  let low := n00 + u * (n10 - n00)
  let high := n01 + u * (n11 - n01)
  (low + v * (high - low)) / ofInt 2

/-- The noise at two coordinates, from minus one to one. -/
def noise (x y : α) : α :=
  let x₀ := floor x
  let y₀ := floor y
  clamp (ofInt (-1)) (ofInt 1) (noiseInCell (toInt x₀) (toInt y₀) (x - x₀) (y - y₀))

end PixelHost.Effect
