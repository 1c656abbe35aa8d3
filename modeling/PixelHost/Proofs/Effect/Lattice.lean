import Mathlib
import PixelHost.Effect.Noise
import PixelHost.Proofs.Effect.Rounding

/-!
# The cells of the noise

The noise is made cell by cell, from the slopes at the four corners of a cell. At an edge of a cell
the corners that are not on it have no part in the noise, so two cells agree along their common
edge. Along one coordinate the slopes rise by no more than the distances of an offset from both
sides, and these are blended against each other. So the rise is at most one along each of the
coordinates, and half of the sum needs no clamping.

## Main results

* `Effect.noiseInCell_right`, `Effect.noiseInCell_top` — neighboring cells agree.
* `Effect.noiseInCell_mem` — the range of the noise in a cell.
* `Effect.noise_eq_noiseInCell` — clamping does not change the noise.
* `Effect.noise_seamless` — the noise as a whole.
-/

namespace PixelHost.Effect

open Scalar

/-! ### The parts of the noise on rationals -/

theorem rise_rat (hash : UInt64) (dx dy : ℚ) :
    rise hash dx dy = match (hash &&& 7).toNat with
      | 0 => dx + dy
      | 1 => dx - dy
      | 2 => -dx + dy
      | 3 => -dx - dy
      | 4 => dx
      | 5 => -dx
      | 6 => dy
      | _ => -dy := rfl

theorem fade_rat (t : ℚ) : fade t = t * t * t * (t * (t * 6 - 15) + 10) := rfl

/-- What two values are blended to. -/
def blend (part p q : ℚ) : ℚ := p + part * (q - p)

theorem noiseInCell_rat (x y : Int64) (a b : ℚ) :
    noiseInCell x y a b =
      blend (fade b)
        (blend (fade a) (rise (latticeHash x y) a b) (rise (latticeHash (x + 1) y) (a - 1) b))
        (blend (fade a) (rise (latticeHash x (y + 1)) a (b - 1))
          (rise (latticeHash (x + 1) (y + 1)) (a - 1) (b - 1))) / 2 := rfl

/-! ### Slopes and blending -/

theorem rise_zero (hash : UInt64) : rise hash (0 : ℚ) 0 = 0 := by
  rw [rise_rat]
  split <;> norm_num

/-- A slope rises at most by the sum of the distances. -/
theorem abs_rise_le (hash : UInt64) (dx dy : ℚ) : |rise hash dx dy| ≤ |dx| + |dy| := by
  have hx := abs_le.mp (le_refl |dx|)
  have hy := abs_le.mp (le_refl |dy|)
  have hnonneg := abs_nonneg dx
  have hnonneg' := abs_nonneg dy
  rw [rise_rat, abs_le]
  split <;> constructor <;> linarith

theorem fade_zero : fade (0 : ℚ) = 0 := by norm_num [fade_rat]

theorem fade_one : fade (1 : ℚ) = 1 := by norm_num [fade_rat]

/-- The curve is the same from both ends. -/
theorem fade_one_sub (t : ℚ) : fade (1 - t) = 1 - fade t := by
  rw [fade_rat, fade_rat]
  ring

theorem fade_nonneg {t : ℚ} (nonneg : 0 ≤ t) : 0 ≤ fade t := by
  have hquadratic : 0 ≤ t * (t * 6 - 15) + 10 := by linarith [sq_nonneg (t - 5 / 4), sq_nonneg t]
  rw [fade_rat]
  positivity

theorem fade_mem {t : ℚ} (ht : t ∈ Set.Icc (0 : ℚ) 1) : fade t ∈ Set.Icc (0 : ℚ) 1 := by
  have hrest := fade_nonneg (sub_nonneg.mpr ht.2)
  rw [fade_one_sub] at hrest
  exact ⟨fade_nonneg ht.1, sub_nonneg.mp hrest⟩

theorem blend_zero (p q : ℚ) : blend 0 p q = p := by
  rw [blend, zero_mul, add_zero]

theorem blend_one (p q : ℚ) : blend 1 p q = q := by
  rw [blend, one_mul, add_sub_cancel]

/-- Bounds are blended as the values are. -/
theorem abs_blend_le {part p q P Q : ℚ} (hpart : part ∈ Set.Icc (0 : ℚ) 1) (hp : |p| ≤ P)
    (hq : |q| ≤ Q) : |blend part p q| ≤ blend part P Q := by
  have hsplit (p q : ℚ) : blend part p q = (1 - part) * p + part * q := by
    rw [blend]
    ring
  have hrest : 0 ≤ 1 - part := sub_nonneg.mpr hpart.2
  calc |blend part p q| ≤ |(1 - part) * p| + |part * q| := hsplit p q ▸ abs_add_le _ _
    _ = (1 - part) * |p| + part * |q| := by
      rw [abs_mul, abs_mul, abs_of_nonneg hrest, abs_of_nonneg hpart.1]
    _ ≤ (1 - part) * P + part * Q :=
      add_le_add (mul_le_mul_of_nonneg_left hp hrest) (mul_le_mul_of_nonneg_left hq hpart.1)
    _ = blend part P Q := (hsplit P Q).symm

/-- The distances from both sides are blended to one at most. -/
theorem blend_distances_le {part a : ℚ} (hpart : part ∈ Set.Icc (0 : ℚ) 1)
    (ha : a ∈ Set.Icc (0 : ℚ) 1) : blend part a (1 - a) ≤ 1 := by
  have hleft : |a| ≤ 1 := (abs_of_nonneg ha.1).le.trans ha.2
  have hright : |1 - a| ≤ 1 := (abs_of_nonneg (sub_nonneg.mpr ha.2)).le.trans (sub_le_self 1 ha.1)
  calc blend part a (1 - a) ≤ |blend part a (1 - a)| := le_abs_self _
    _ ≤ blend part 1 1 := abs_blend_le hpart hleft hright
    _ = 1 := by rw [blend, sub_self, mul_zero, add_zero]

/-! ### Cells -/

section

variable (x y : Int64)

/-- A cell agrees with the one to the right along their common edge. -/
theorem noiseInCell_right (b : ℚ) : noiseInCell x y 1 b = noiseInCell (x + 1) y 0 b := by
  rw [noiseInCell_rat, noiseInCell_rat, fade_one, fade_zero, blend_one, blend_one, blend_zero,
    blend_zero, sub_self]

/-- A cell agrees with the one above along their common edge. -/
theorem noiseInCell_top (a : ℚ) : noiseInCell x y a 1 = noiseInCell x (y + 1) a 0 := by
  rw [noiseInCell_rat, noiseInCell_rat, fade_one, fade_zero, blend_one, blend_zero, sub_self]

theorem noiseInCell_origin : noiseInCell x y 0 (0 : ℚ) = 0 := by
  rw [noiseInCell_rat, fade_zero, blend_zero, blend_zero, rise_zero, zero_div]

/-- The noise is nothing at the corners of a cell. -/
theorem noiseInCell_corner {a b : ℚ} (ha : a ∈ ({0, 1} : Set ℚ)) (hb : b ∈ ({0, 1} : Set ℚ)) :
    noiseInCell x y a b = 0 := by
  rcases ha with rfl | rfl
  · rcases hb with rfl | rfl
    · exact noiseInCell_origin x y
    · exact (noiseInCell_top x y 0).trans (noiseInCell_origin x (y + 1))
  · rw [noiseInCell_right]
    rcases hb with rfl | rfl
    · exact noiseInCell_origin (x + 1) y
    · exact (noiseInCell_top (x + 1) y 0).trans (noiseInCell_origin (x + 1) (y + 1))

/-- The noise in a cell is between minus one and one. -/
theorem noiseInCell_mem {a b : ℚ} (ha : a ∈ Set.Icc (0 : ℚ) 1) (hb : b ∈ Set.Icc (0 : ℚ) 1) :
    noiseInCell x y a b ∈ Set.Icc (-1 : ℚ) 1 := by
  have hleft : |a| = a := abs_of_nonneg ha.1
  have hright : |a - 1| = 1 - a := by rw [abs_sub_comm, abs_of_nonneg (sub_nonneg.mpr ha.2)]
  have hlow : |b| = b := abs_of_nonneg hb.1
  have hhigh : |b - 1| = 1 - b := by rw [abs_sub_comm, abs_of_nonneg (sub_nonneg.mpr hb.2)]
  have hcorners := abs_blend_le (fade_mem hb)
    (abs_blend_le (fade_mem ha) (abs_rise_le (latticeHash x y) a b)
      (abs_rise_le (latticeHash (x + 1) y) (a - 1) b))
    (abs_blend_le (fade_mem ha) (abs_rise_le (latticeHash x (y + 1)) a (b - 1))
      (abs_rise_le (latticeHash (x + 1) (y + 1)) (a - 1) (b - 1)))
  have hsplit : blend (fade b) (blend (fade a) (|a| + |b|) (|a - 1| + |b|))
      (blend (fade a) (|a| + |b - 1|) (|a - 1| + |b - 1|)) =
        blend (fade a) a (1 - a) + blend (fade b) b (1 - b) := by
    rw [hleft, hright, hlow, hhigh]
    simp only [blend]
    ring
  rw [hsplit] at hcorners
  have hbound := abs_le.mp (hcorners.trans (add_le_add (blend_distances_le (fade_mem ha) ha)
    (blend_distances_le (fade_mem hb) hb)))
  rw [noiseInCell_rat, Set.mem_Icc, le_div_iff₀ two_pos, div_le_iff₀ two_pos]
  constructor <;> linarith

end

/-! ### The noise -/

/-- The noise at two coordinates is that at an offset in a cell. Clamping does not change it. -/
theorem noise_eq_noiseInCell (s t : ℚ) :
    noise s t = noiseInCell (toInt (⌊s⌋ : ℚ)) (toInt (⌊t⌋ : ℚ)) (Int.fract s) (Int.fract t) := by
  have hs : Int.fract s ∈ Set.Icc (0 : ℚ) 1 := ⟨Int.fract_nonneg s, (Int.fract_lt_one s).le⟩
  have ht : Int.fract t ∈ Set.Icc (0 : ℚ) 1 := ⟨Int.fract_nonneg t, (Int.fract_lt_one t).le⟩
  have hrange := noiseInCell_mem (toInt (⌊s⌋ : ℚ)) (toInt (⌊t⌋ : ℚ)) hs ht
  have hclamp : noise s t = clamp (-1) 1
    (noiseInCell (toInt (⌊s⌋ : ℚ)) (toInt (⌊t⌋ : ℚ)) (Int.fract s) (Int.fract t)) := rfl
  rw [hclamp, clamp_rat (by norm_num), min_eq_left hrange.2, max_eq_right hrange.1]

/-- The noise has no seams and needs no clamping. Two cells agree along their common edge, also
where the lattice wraps around; at the corners of a cell the noise is nothing, and everywhere in a
cell it is between minus one and one. -/
theorem noise_seamless (x y : Int64) :
    (∀ b : ℚ, noiseInCell x y 1 b = noiseInCell (x + 1) y 0 b) ∧
    (∀ a : ℚ, noiseInCell x y a 1 = noiseInCell x (y + 1) a 0) ∧
    (∀ a ∈ ({0, 1} : Set ℚ), ∀ b ∈ ({0, 1} : Set ℚ), noiseInCell x y a b = 0) ∧
    (∀ a ∈ Set.Icc (0 : ℚ) 1, ∀ b ∈ Set.Icc (0 : ℚ) 1,
      -1 ≤ noiseInCell x y a b ∧ noiseInCell x y a b ≤ 1) ∧
    ∀ s t : ℚ, noise s t =
      noiseInCell (toInt (⌊s⌋ : ℚ)) (toInt (⌊t⌋ : ℚ)) (Int.fract s) (Int.fract t) :=
  ⟨noiseInCell_right x y, noiseInCell_top x y, fun _ ha _ hb => noiseInCell_corner x y ha hb,
    fun _ ha _ hb => noiseInCell_mem x y ha hb, noise_eq_noiseInCell⟩

example : noise (3 : ℚ) 4 = 0 := by decide +kernel

end PixelHost.Effect
