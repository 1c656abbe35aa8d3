import PixelHost.Effect.Scalar

/-!
# Colors

Colors by hue, saturation and value, and colors between given ones.

## Main definitions

* `Effect.Rgb` — the three channels of a color.
* `Effect.ofHsv` — the color of a hue, a saturation and a value.
* `Effect.onGradient` — the color at a place between evenly spaced ones.
-/

namespace PixelHost.Effect

open Scalar

/-- A red, a green and a blue channel. -/
structure Rgb (α : Type) where
  red : α
  green : α
  blue : α
  deriving DecidableEq, Repr, Inhabited

namespace Rgb

/-- Changes each channel in the same way. -/
def map {α β : Type} (f : α → β) (c : Rgb α) : Rgb β := ⟨f c.red, f c.green, f c.blue⟩

/-- Joins two colors channel by channel. -/
def zipWith {α β γ : Type} (f : α → β → γ) (c : Rgb α) (d : Rgb β) : Rgb γ :=
  ⟨f c.red d.red, f c.green d.green, f c.blue d.blue⟩

/-- The channels in their order. -/
def toArray {α : Type} (c : Rgb α) : Array α := #[c.red, c.green, c.blue]

end Rgb

variable {α : Type} [Scalar α]

/-- The channels, from zero to one, of a hue, a saturation and a value. The hue wraps around after
one; saturation and value are clamped to the range from zero to one. -/
def hsvChannels (h s v : α) : Rgb α :=
  let h := fraction h * ofInt 6
  let s := clamp (ofInt 0) (ofInt 1) s
  let v := clamp (ofInt 0) (ofInt 1) v
  let sector := floor h
  let f := h - sector
  let p := v * (ofInt 1 - s)
  let q := v * (ofInt 1 - s * f)
  let t := v * (ofInt 1 - s * (ofInt 1 - f))
  match (toInt sector).toInt % 6 with
  | 0 => ⟨v, t, p⟩
  | 1 => ⟨q, v, p⟩
  | 2 => ⟨p, v, t⟩
  | 3 => ⟨p, q, v⟩
  | 4 => ⟨t, p, v⟩
  | _ => ⟨v, p, q⟩

/-- The color of a hue, a saturation and a value. -/
def ofHsv (h s v : α) : Rgb Int64 := (hsvChannels h s v).map fun x => toByte (x * ofInt 255)

/-- The segment between two stops in which a position lies. The last stop belongs to the last
segment. -/
def segment (count : Nat) (position : α) : Nat :=
  min (toIndex (floor position)) (count - 2)

/-- The channels at a place between evenly spaced stops: zero is the first one and one the last.
Places outside of the range are at its ends. -/
def gradientChannels (stops : Array (Rgb α)) (t : α) : Rgb α :=
  let black : Rgb α := ⟨ofInt 0, ofInt 0, ofInt 0⟩
  if stops.size ≤ 1 then stops.getD 0 black
  else
    let position := clamp (ofInt 0) (ofInt 1) t * ofInt (stops.size - 1 : Nat)
    let i := segment stops.size position
    let part := position - ofInt i
    (stops.getD i black).zipWith (fun a b => a + (b - a) * part) (stops.getD (i + 1) black)

/-- The color at a place between evenly spaced stops. -/
def onGradient (stops : Array (Rgb α)) (t : α) : Rgb Int64 := (gradientChannels stops t).map toByte

end PixelHost.Effect
