import Mathlib
import PixelHost.Effect.Scalar
import PixelHost.Proofs.Lua.Doubles

/-!
# Rounding to color values

The numbers of light effects read as rationals. The operations on them are the usual ones, and a color
value is the nearest integer of a number that is brought into the range from 0 to 255 first. So a
greater number gives no smaller color value.

## Main definitions

* `Effect.shade` — a number that is brought into the range of colors.

## Main results

* `Effect.toInt_toByte` — the color value nearest to a number.
* `Effect.toByte_mono`, `Effect.toByte_mem` — color values grow with the number, and their range.
-/

namespace PixelHost.Effect

open Scalar

/-! ### Operations on rationals -/

theorem ofInt_rat (n : ℤ) : (ofInt n : ℚ) = n := rfl

theorem floor_rat (x : ℚ) : Scalar.floor x = (⌊x⌋ : ℚ) := rfl

theorem fraction_rat (x : ℚ) : fraction x = Int.fract x := rfl

theorem clamp_rat {low high : ℚ} (h : low ≤ high) (x : ℚ) :
    clamp low high x = max low (min x high) := by
  change (if x < low then low else if x > high then high else x) = _
  split
  · next hlow => rw [max_eq_left (min_le_of_left_le hlow.le)]
  · next hlow =>
    split
    · next hhigh => rw [min_eq_right hhigh.le, max_eq_right h]
    · next hhigh => rw [min_eq_left (not_lt.mp hhigh), max_eq_right (not_lt.mp hlow)]

/-- An integer of 64 bits is its integer part. -/
theorem toInt_intCast {n : ℤ} (low : -2 ^ 63 ≤ n) (high : n < 2 ^ 63) :
    (toInt (n : ℚ)).toInt = n := by
  have hpart : toInt (n : ℚ) = Binary64.saturate n := by
    change Binary64.saturate (if (n : ℚ) < 0 then (n : ℚ).ceil else (n : ℚ).floor) = _
    rw [Rat.ceil_intCast, Rat.floor_intCast, ite_self]
  have hmin : Int64.minValue.toInt = -2 ^ 63 := rfl
  have hmax : Int64.maxValue.toInt = 2 ^ 63 - 1 := rfl
  rw [hpart, Binary64.toInt_saturate, hmin, hmax]
  omega

/-- Numbers that are not negative are rounded half up. -/
theorem round_rat {x : ℚ} (nonneg : 0 ≤ x) : Scalar.round x = (⌊x + 1 / 2⌋ : ℚ) := by
  change (if x < 0 then -((⌊-x + 1 / 2⌋ : ℤ) : ℚ) else ((⌊x + 1 / 2⌋ : ℤ) : ℚ)) = _
  rw [if_neg (not_lt.mpr nonneg)]

theorem round_rat_nonpos {x : ℚ} (nonpos : x ≤ 0) : Scalar.round x ≤ (0 : ℚ) := by
  change (if x < 0 then -((⌊-x + 1 / 2⌋ : ℤ) : ℚ) else ((⌊x + 1 / 2⌋ : ℤ) : ℚ)) ≤ 0
  split
  · have hfloor : 0 ≤ ⌊-x + 1 / 2⌋ := Int.floor_nonneg.mpr (by linarith)
    have hcast : (0 : ℚ) ≤ (⌊-x + 1 / 2⌋ : ℚ) := by exact_mod_cast hfloor
    linarith
  · next hneg =>
    obtain rfl : x = 0 := le_antisymm nonpos (not_lt.mp hneg)
    norm_num

/-! ### Color values -/

/-- A number that is brought into the range of colors. -/
def shade (x : ℚ) : ℚ := max 0 (min x 255)

theorem shade_mem (x : ℚ) : 0 ≤ shade x ∧ shade x ≤ 255 :=
  ⟨le_max_left _ _, max_le (by norm_num) (min_le_right _ _)⟩

theorem shade_mono : Monotone shade := fun _ _ h => max_le_max_left 0 (min_le_min_right 255 h)

/-- Rounding and bringing a number into the range of colors may change places. -/
theorem shade_round (x : ℚ) : shade (Scalar.round x) = (⌊shade x + 1 / 2⌋ : ℚ) := by
  rcases le_total x 0 with hlow | hlow
  · have hround := round_rat_nonpos hlow
    have hx : shade x = 0 := max_eq_left (min_le_of_left_le hlow)
    rw [hx, shade, max_eq_left (min_le_of_left_le hround)]
    norm_num
  · have hround := round_rat hlow
    rcases le_total x 255 with hhigh | hhigh
    · have hx : shade x = x := by rw [shade, min_eq_left hhigh, max_eq_right hlow]
      have hnonneg : 0 ≤ ⌊x + 1 / 2⌋ := Int.floor_nonneg.mpr (by linarith)
      have hle : ⌊x + 1 / 2⌋ ≤ 255 := Int.lt_add_one_iff.mp (Int.floor_lt.mpr (by norm_num; linarith))
      rw [hx, hround, shade, min_eq_left (by exact_mod_cast hle),
        max_eq_right (by exact_mod_cast hnonneg)]
    · have hx : shade x = 255 := by rw [shade, min_eq_right hhigh, max_eq_right (by norm_num)]
      have hge : 255 ≤ ⌊x + 1 / 2⌋ := Int.le_floor.mpr (by norm_num; linarith)
      rw [hx, hround, shade, min_eq_right (by exact_mod_cast hge), max_eq_right (by norm_num)]
      norm_num

theorem floor_shade_mem (x : ℚ) : 0 ≤ ⌊shade x + 1 / 2⌋ ∧ ⌊shade x + 1 / 2⌋ ≤ 255 := by
  obtain ⟨hnonneg, hle⟩ := shade_mem x
  exact ⟨Int.floor_nonneg.mpr (by linarith),
    Int.lt_add_one_iff.mp (Int.floor_lt.mpr (by norm_num; linarith))⟩

/-- The color value of a number is the integer nearest to the number in the range of colors. -/
theorem toInt_toByte (x : ℚ) : (toByte x).toInt = ⌊shade x + 1 / 2⌋ := by
  have hrange : toByte x = toInt (shade (Scalar.round x)) :=
    congrArg toInt (clamp_rat (by norm_num [ofInt_rat]) _)
  obtain ⟨hnonneg, hle⟩ := floor_shade_mem x
  rw [hrange, shade_round, toInt_intCast] <;> omega

/-- A greater number gives no smaller color value. -/
theorem toByte_mono : Monotone fun x : ℚ => (toByte x).toInt := by
  intro x y h
  simp only [toInt_toByte]
  exact Int.floor_mono (add_le_add_left (shade_mono h) _)

/-- The range of color values. -/
theorem toByte_mem (x : ℚ) : 0 ≤ (toByte x).toInt ∧ (toByte x).toInt ≤ 255 := by
  rw [toInt_toByte]
  exact floor_shade_mem x

end PixelHost.Effect
