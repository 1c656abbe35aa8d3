import Mathlib
import PixelHost.Effect.Color
import PixelHost.Proofs.Effect.Hue

/-!
# Gradients

The stops of a gradient are evenly spaced from zero to one. A channel of the gradient runs in
straight lines through those of the stops and stays at the outer ones beyond them. The segment of a
place is chosen by rounding down. A stop between two segments belongs to the second one, and the
last stop, where no other segment follows, to the last one; at a stop both give the same.

## Main definitions

* `Effect.Primary`, `Effect.Rgb.part` — the channels of a color by name.
* `Effect.IsPolyline` — a function that runs in straight lines through evenly spaced knots.

## Main results

* `Effect.IsPolyline.unique` — through some knots there is one such function.
* `Effect.segment_spec` — the segment of a place.
* `Effect.gradientChannels_isPolyline` — a channel runs in straight lines through the stops.
* `Effect.onGradient_interpolates` — the color at a place.
-/

namespace PixelHost.Effect

open Scalar

/-! ### Channels by name -/

/-- The channels of a color. -/
inductive Primary where
  | red | green | blue
  deriving DecidableEq, Repr

/-- The channel of a color with a name. -/
def Rgb.part {α : Type} (c : Rgb α) : Primary → α
  | .red => c.red
  | .green => c.green
  | .blue => c.blue

section

variable {α β γ : Type} (p : Primary)

theorem Rgb.ext_part {c d : Rgb α} (h : ∀ p, c.part p = d.part p) : c = d := by
  obtain ⟨r, g, b⟩ := c
  obtain ⟨r', g', b'⟩ := d
  obtain rfl : r = r' := h .red
  obtain rfl : g = g' := h .green
  obtain rfl : b = b' := h .blue
  rfl

theorem Rgb.part_map (f : α → β) (c : Rgb α) : (c.map f).part p = f (c.part p) := by
  cases p <;> rfl

theorem Rgb.part_zipWith (f : α → β → γ) (c : Rgb α) (d : Rgb β) :
    (c.zipWith f d).part p = f (c.part p) (d.part p) := by
  cases p <;> rfl

end

/-! ### Straight lines through knots -/

/-- The place of one of some stops, which are evenly spaced from zero to one. -/
def stopPlace (count i : ℕ) : ℚ := i / (count - 1 : ℕ)

/-- The function runs in straight lines through knots that are evenly spaced from zero to one. It is
constant beyond them, and if there is one knot only. -/
structure IsPolyline (knots : Array ℚ) (f : ℚ → ℚ) : Prop where
  single : ∀ _ : knots.size = 1, ∀ t, f t = knots[0]
  before : ∀ _ : 0 < knots.size, ∀ t ≤ 0, f t = knots[0]
  after : ∀ _ : 0 < knots.size, ∀ t ≥ 1, f t = knots[knots.size - 1]
  between : ∀ i, ∀ _ : i + 1 < knots.size,
    ∀ t ∈ Set.Icc (stopPlace knots.size i) (stopPlace knots.size (i + 1)),
      f t = knots[i] + (knots[i + 1] - knots[i]) *
        ((t - stopPlace knots.size i) / (stopPlace knots.size (i + 1) - stopPlace knots.size i))

section

variable {count i : ℕ} (many : i + 1 < count)
include many

theorem segments_pos : (0 : ℚ) < (count - 1 : ℕ) := by
  have hpos : 0 < count - 1 := by omega
  exact_mod_cast hpos

theorem stopPlace_mul (j : ℕ) : stopPlace count j * (count - 1 : ℕ) = j :=
  div_mul_cancel₀ _ (segments_pos many).ne'

/-- Between two stops, the part of the way that a place has come. -/
theorem part_of_way (t : ℚ) :
    (t - stopPlace count i) / (stopPlace count (i + 1) - stopPlace count i) =
      t * (count - 1 : ℕ) - i := by
  have hpos := segments_pos many
  rw [stopPlace, stopPlace, Nat.cast_succ]
  field_simp
  ring

theorem mem_span_iff (t : ℚ) :
    t ∈ Set.Icc (stopPlace count i) (stopPlace count (i + 1)) ↔
      i ≤ t * (count - 1 : ℕ) ∧ t * (count - 1 : ℕ) ≤ i + 1 := by
  have hpos := segments_pos many
  rw [Set.mem_Icc, stopPlace, stopPlace, div_le_iff₀ hpos, le_div_iff₀ hpos, Nat.cast_succ]

/-- What lies between two stops is not brought to an end of the range. -/
theorem unit_of_mem_span {t : ℚ}
    (ht : t ∈ Set.Icc (stopPlace count i) (stopPlace count (i + 1))) : unit t = t := by
  have hlow : 0 ≤ stopPlace count i := div_nonneg i.cast_nonneg (Nat.cast_nonneg _)
  have hhigh : stopPlace count (i + 1) ≤ 1 := by
    have hle : i + 1 ≤ count - 1 := by omega
    exact div_le_one_of_le₀ (by exact_mod_cast hle) (Nat.cast_nonneg _)
  rw [unit, min_eq_left (ht.2.trans hhigh), max_eq_right (hlow.trans ht.1)]

theorem stopPlace_mem_span :
    stopPlace count i ∈ Set.Icc (stopPlace count i) (stopPlace count (i + 1)) ∧
      stopPlace count (i + 1) ∈ Set.Icc (stopPlace count i) (stopPlace count (i + 1)) := by
  rw [mem_span_iff many, mem_span_iff many, stopPlace_mul many, stopPlace_mul many, Nat.cast_succ]
  exact ⟨⟨le_rfl, by linarith⟩, by linarith, le_rfl⟩

end

/-! ### The segment of a place -/

theorem segment_rat (count : ℕ) (x : ℚ) : segment count x = min ⌊x⌋₊ (count - 2) := by
  have hindex : toIndex (Scalar.floor x) = ⌊x⌋₊ := by
    rw [floor_rat]
    change (⌊(⌊x⌋ : ℚ)⌋ : ℤ).toNat = ⌊x⌋₊
    rw [Int.floor_intCast, Int.floor_toNat]
  rw [segment, hindex]

theorem segment_lt {count : ℕ} (many : 2 ≤ count) (x : ℚ) : segment count x + 1 < count := by
  have hle : segment count x ≤ count - 2 := min_le_right _ _
  omega

/-- A place lies in its segment. The segments are as long as one, and only the last stop is the end
of the segment that is chosen for it. -/
theorem segment_spec {count : ℕ} (many : 2 ≤ count) {x : ℚ} (low : 0 ≤ x)
    (high : x ≤ (count - 1 : ℕ)) : segment count x ≤ x ∧ x ≤ segment count x + 1 := by
  have hfloor := Nat.floor_le low
  rw [segment_rat]
  rcases le_or_gt ⌊x⌋₊ (count - 2) with hle | hlt
  · rw [min_eq_left hle]
    exact ⟨hfloor, (Nat.lt_floor_add_one x).le⟩
  · have hlast : count - 1 ≤ ⌊x⌋₊ := by omega
    have hend : ((count - 1 : ℕ) : ℚ) ≤ ⌊x⌋₊ := by exact_mod_cast hlast
    have hnext : ((count - 2 : ℕ) : ℚ) + 1 = (count - 1 : ℕ) := by
      have hcount : count - 2 + 1 = count - 1 := by omega
      exact_mod_cast hcount
    rw [min_eq_right hlt.le]
    constructor <;> linarith

/-- Every place from zero to one lies between two stops. -/
theorem exists_span {count : ℕ} (many : 2 ≤ count) {t : ℚ} (low : 0 ≤ t) (high : t ≤ 1) :
    ∃ i, i + 1 < count ∧ t ∈ Set.Icc (stopPlace count i) (stopPlace count (i + 1)) := by
  have hlast : (0 : ℚ) ≤ (count - 1 : ℕ) := Nat.cast_nonneg _
  have hlow : 0 ≤ t * (count - 1 : ℕ) := mul_nonneg low hlast
  have hhigh : t * (count - 1 : ℕ) ≤ (count - 1 : ℕ) := mul_le_of_le_one_left hlast high
  have hlt := segment_lt many (t * (count - 1 : ℕ))
  exact ⟨_, hlt, (mem_span_iff hlt t).mpr (segment_spec many hlow hhigh)⟩

/-! ### What is known of a polyline -/

namespace IsPolyline

variable {knots : Array ℚ} {f g : ℚ → ℚ} {i : ℕ}

/-- Through some knots there is one polyline. -/
theorem unique (nonempty : 0 < knots.size) (hf : IsPolyline knots f) (hg : IsPolyline knots g) :
    f = g := by
  funext t
  rcases Nat.eq_or_lt_of_le (Nat.succ_le_iff.mpr nonempty) with hone | hmany
  · rw [hf.single hone.symm, hg.single hone.symm]
  · rcases le_or_gt t 0 with hlow | hlow
    · rw [hf.before nonempty t hlow, hg.before nonempty t hlow]
    · rcases le_or_gt 1 t with hhigh | hhigh
      · rw [hf.after nonempty t hhigh, hg.after nonempty t hhigh]
      · obtain ⟨i, hi, ht⟩ := exists_span hmany hlow.le hhigh.le
        rw [hf.between i hi t ht, hg.between i hi t ht]

section

variable (hf : IsPolyline knots f)
include hf

theorem eq_lerp (hi : i + 1 < knots.size) {t : ℚ}
    (ht : t ∈ Set.Icc (stopPlace knots.size i) (stopPlace knots.size (i + 1))) :
    f t = knots[i] + (knots[i + 1] - knots[i]) * (t * (knots.size - 1 : ℕ) - i) := by
  rw [hf.between i hi t ht, part_of_way hi]

/-- At the place of a knot the function has its value. -/
theorem at_stopPlace (hi : i < knots.size) : f (stopPlace knots.size i) = knots[i] := by
  cases i with
  | zero =>
    refine hf.before hi _ ?_
    rw [stopPlace, Nat.cast_zero, zero_div]
  | succ i =>
    rw [hf.eq_lerp hi (stopPlace_mem_span hi).2, stopPlace_mul hi, Nat.cast_succ]
    ring

/-- Between two knots the function rises if they do. -/
theorem monotoneOn (hi : i + 1 < knots.size) (rises : knots[i] ≤ knots[i + 1]) :
    MonotoneOn f (Set.Icc (stopPlace knots.size i) (stopPlace knots.size (i + 1))) := by
  intro t ht t' ht' hle
  have hway : t * (knots.size - 1 : ℕ) ≤ t' * (knots.size - 1 : ℕ) :=
    mul_le_mul_of_nonneg_right hle (segments_pos hi).le
  have hrise : 0 ≤ knots[i + 1] - knots[i] := sub_nonneg.mpr rises
  rw [hf.eq_lerp hi ht, hf.eq_lerp hi ht']
  gcongr

/-- Between two knots the function falls if they do. -/
theorem antitoneOn (hi : i + 1 < knots.size) (falls : knots[i + 1] ≤ knots[i]) :
    AntitoneOn f (Set.Icc (stopPlace knots.size i) (stopPlace knots.size (i + 1))) := by
  intro t ht t' ht' hle
  have hway : t * (knots.size - 1 : ℕ) ≤ t' * (knots.size - 1 : ℕ) :=
    mul_le_mul_of_nonneg_right hle (segments_pos hi).le
  have hfall : knots[i + 1] - knots[i] ≤ 0 := sub_nonpos.mpr falls
  rw [hf.eq_lerp hi ht, hf.eq_lerp hi ht']
  exact add_le_add_right (mul_le_mul_of_nonpos_left (sub_le_sub_right hway _) hfall) _

/-- Between two knots the function is between their values. -/
theorem mem_uIcc (hi : i + 1 < knots.size) {t : ℚ}
    (ht : t ∈ Set.Icc (stopPlace knots.size i) (stopPlace knots.size (i + 1))) :
    f t ∈ Set.uIcc knots[i] knots[i + 1] := by
  have hfirst := hf.at_stopPlace (Nat.lt_of_succ_lt hi)
  have hlast := hf.at_stopPlace hi
  rcases le_total knots[i] knots[i + 1] with hle | hle
  · have hmaps := (hf.monotoneOn hi hle).mapsTo_Icc ht
    rw [hfirst, hlast] at hmaps
    exact Set.Icc_subset_uIcc hmaps
  · have hmaps := (hf.antitoneOn hi hle).mapsTo_Icc ht
    rw [hfirst, hlast] at hmaps
    exact Set.Icc_subset_uIcc' hmaps

end

end IsPolyline

/-! ### The channels of a gradient -/

/-- Where two segments meet, both give the same. -/
theorem lerp_congr (knots : Array ℚ) {i j : ℕ} (hi : i + 1 < knots.size) (hj : j + 1 < knots.size)
    {x : ℚ} (ini : i ≤ x ∧ x ≤ i + 1) (inj : j ≤ x ∧ x ≤ j + 1) :
    knots[i] + (knots[i + 1] - knots[i]) * (x - i) =
      knots[j] + (knots[j + 1] - knots[j]) * (x - j) := by
  wlog hle : i ≤ j generalizing i j
  · exact (this hj hi inj ini (Nat.le_of_not_ge hle)).symm
  have hnext : j ≤ i + 1 := by exact_mod_cast inj.1.trans ini.2
  rcases Nat.le_succ_iff.mp hnext with hge | rfl
  · obtain rfl := le_antisymm hle hge
    rfl
  · have hmeet : x = i + 1 := le_antisymm ini.2 (by exact_mod_cast inj.1)
    rw [hmeet, Nat.cast_succ]
    ring

section

variable {stops : Array (Rgb ℚ)} (t : ℚ)

theorem gradientChannels_single (one : stops.size = 1) : gradientChannels stops t = stops[0] := by
  rw [gradientChannels, if_pos one.le, Array.getD_eq_getD_getElem?,
    Array.getElem?_eq_getElem (by omega), Option.getD_some]

/-- The channels between two stops. Both are there. -/
theorem gradientChannels_many (many : 2 ≤ stops.size) :
    let x := unit t * (stops.size - 1 : ℕ)
    let i := segment stops.size x
    ∃ _ : i + 1 < stops.size, gradientChannels stops t =
      stops[i].zipWith (fun a b => a + (b - a) * (x - i)) stops[i + 1] := by
  intro x i
  have hi : i + 1 < stops.size := segment_lt many x
  refine ⟨hi, ?_⟩
  have hplace : clamp (ofInt 0) (ofInt 1) t * ofInt (stops.size - 1 : ℕ) = x :=
    congrArg (· * ((stops.size - 1 : ℕ) : ℚ)) (clamp_rat zero_le_one t)
  rw [gradientChannels, if_neg (by omega), hplace]
  simp only [Array.getD_eq_getD_getElem?]
  rw [Array.getElem?_eq_getElem hi, Array.getElem?_eq_getElem (Nat.lt_of_succ_lt hi)]
  rfl

/-- A channel between two stops. At a stop between two segments it may be taken from either. -/
theorem part_gradientChannels (p : Primary) {i : ℕ} (hi : i + 1 < stops.size)
    (low : i ≤ unit t * (stops.size - 1 : ℕ)) (high : unit t * (stops.size - 1 : ℕ) ≤ i + 1) :
    (gradientChannels stops t).part p = stops[i].part p +
      (stops[i + 1].part p - stops[i].part p) * (unit t * (stops.size - 1 : ℕ) - i) := by
  have many : 2 ≤ stops.size := by omega
  obtain ⟨hsegment, hchannels⟩ := gradientChannels_many t many
  have hsize : (stops.map (·.part p)).size = stops.size := Array.size_map
  have hlast : (0 : ℚ) ≤ (stops.size - 1 : ℕ) := Nat.cast_nonneg _
  have hx : 0 ≤ unit t * (stops.size - 1 : ℕ) := mul_nonneg (unit_mem t).1 hlast
  have hx' : unit t * (stops.size - 1 : ℕ) ≤ (stops.size - 1 : ℕ) :=
    mul_le_of_le_one_left hlast (unit_mem t).2
  have hcongr := lerp_congr (stops.map (·.part p)) (hsize.symm ▸ hi) (hsize.symm ▸ hsegment)
    ⟨low, high⟩ (segment_spec many hx hx')
  rw [hchannels, Rgb.part_zipWith]
  simp only [Array.getElem_map] at hcongr
  exact hcongr.symm

/-- Up to zero a gradient is at its first stop. -/
theorem part_of_nonpos (p : Primary) (nonempty : 0 < stops.size) (nonpos : t ≤ 0) :
    (gradientChannels stops t).part p = stops[0].part p := by
  rcases Nat.eq_or_lt_of_le (Nat.succ_le_iff.mpr nonempty) with one | many
  · rw [gradientChannels_single t one.symm]
  · have hunit : unit t = 0 := max_eq_left (min_le_of_left_le nonpos)
    rw [part_gradientChannels t p many] <;> rw [hunit, zero_mul, Nat.cast_zero]
    · ring
    · norm_num

/-- From one on a gradient is at its last stop. -/
theorem part_of_one_le (p : Primary) (nonempty : 0 < stops.size) (high : 1 ≤ t) :
    (gradientChannels stops t).part p = stops[stops.size - 1].part p := by
  rcases Nat.eq_or_lt_of_le (Nat.succ_le_iff.mpr nonempty) with one | many
  · rw [gradientChannels_single t one.symm]
    simp only [← one, Nat.sub_self]
  · have hunit : unit t = 1 := by rw [unit, min_eq_right high, max_eq_right zero_le_one]
    have hlast : stops.size - 1 = stops.size - 2 + 1 := by omega
    have hend : ((stops.size - 1 : ℕ) : ℚ) = (stops.size - 2 : ℕ) + 1 := by exact_mod_cast hlast
    rw [part_gradientChannels t p (i := stops.size - 2) (by omega)] <;> rw [hunit, one_mul, hend]
    · simp only [hlast]
      ring
    · linarith

/-- A channel of a gradient runs in straight lines through those of the stops. -/
theorem gradientChannels_isPolyline (p : Primary) :
    IsPolyline (stops.map (·.part p)) fun t => (gradientChannels stops t).part p := by
  have hsize : (stops.map (·.part p)).size = stops.size := Array.size_map
  refine ⟨fun one t => ?_, fun nonempty t ht => ?_, fun nonempty t ht => ?_, fun i hi t ht => ?_⟩
  · rw [gradientChannels_single t (hsize ▸ one), Array.getElem_map]
  · rw [part_of_nonpos t p (hsize ▸ nonempty) ht, Array.getElem_map]
  · rw [part_of_one_le t p (hsize ▸ nonempty) ht, Array.getElem_map]
    simp only [hsize]
  · have hspan := (mem_span_iff hi t).mp ht
    have hunit := unit_of_mem_span hi ht
    rw [part_of_way hi]
    simp only [hsize, Array.getElem_map] at hi hspan ⊢
    rw [part_gradientChannels t p hi] <;> rw [hunit]
    · exact hspan.1
    · exact hspan.2

end

/-- The color at a place of a gradient. Between two stops both are there, and the channels are those
of the one polyline through the stops, rounded to color values. So the color of a stop is reached
exactly at its place, and between two stops a color value lies between theirs and rises or falls
throughout. -/
theorem onGradient_interpolates {stops : Array (Rgb ℚ)} (nonempty : 0 < stops.size) :
    (2 ≤ stops.size → ∀ t,
      let x := unit t * (stops.size - 1 : ℕ)
      let i := segment stops.size x
      ∃ _ : i + 1 < stops.size, gradientChannels stops t =
        stops[i].zipWith (fun a b => a + (b - a) * (x - i)) stops[i + 1]) ∧
    (∀ i, ∀ _ : i < stops.size,
      onGradient stops (stopPlace stops.size i) = stops[i].map toByte) ∧
    ∀ p, (∃ f, (∀ g, IsPolyline (stops.map (·.part p)) g ↔ g = f) ∧
        ∀ t, (onGradient stops t).part p = toByte (f t)) ∧
      ∀ i, ∀ _ : i + 1 < stops.size,
        let span := Set.Icc (stopPlace stops.size i) (stopPlace stops.size (i + 1))
        let value := fun t => ((onGradient stops t).part p).toInt
        (∀ t ∈ span, value t ∈ Set.uIcc (toByte (stops[i].part p)).toInt
          (toByte (stops[i + 1].part p)).toInt) ∧
        (stops[i].part p ≤ stops[i + 1].part p → MonotoneOn value span) ∧
        (stops[i + 1].part p ≤ stops[i].part p → AntitoneOn value span) := by
  have hline (p : Primary) :
      IsPolyline (stops.map (·.part p)) fun t => (gradientChannels stops t).part p :=
    gradientChannels_isPolyline p
  have hvalue (p : Primary) (t : ℚ) :
      (onGradient stops t).part p = toByte ((gradientChannels stops t).part p) :=
    Rgb.part_map p toByte _
  have hsize (p : Primary) : (stops.map (·.part p)).size = stops.size := Array.size_map
  have hmono : Monotone fun x : ℚ => (toByte x).toInt := toByte_mono
  refine ⟨fun many t => gradientChannels_many t many, fun i hi => ?_, fun p =>
    ⟨⟨_, fun g => ⟨fun hg => ?_, fun hg => hg ▸ hline p⟩, hvalue p⟩, fun i hi => ?_⟩⟩
  · refine Rgb.ext_part fun p => ?_
    have hknot := (hline p).at_stopPlace (i := i) ((hsize p).symm ▸ hi)
    simp only [hsize, Array.getElem_map] at hknot
    rw [hvalue, hknot, Rgb.part_map]
  · exact hg.unique ((hsize p).symm ▸ nonempty) (hline p)
  · intro span value
    have hvalues :
        value = (fun x : ℚ => (toByte x).toInt) ∘ fun t => (gradientChannels stops t).part p :=
      funext fun t => congrArg Int64.toInt (hvalue p t)
    have hi' : i + 1 < (stops.map (·.part p)).size := (hsize p).symm ▸ hi
    have hbetween := fun t => (hline p).mem_uIcc hi' (t := t)
    have hrises := (hline p).monotoneOn hi'
    have hfalls := (hline p).antitoneOn hi'
    simp only [hsize, Array.getElem_map] at hbetween hrises hfalls
    rw [hvalues]
    refine ⟨fun t ht => ?_, fun hle => ?_, fun hle => ?_⟩
    · exact hmono.mapsTo_uIcc (hbetween t ht)
    · exact hmono.comp_monotoneOn (hrises hle)
    · exact hmono.comp_antitoneOn (hfalls hle)

/-- The place of the second of three stops is a half. -/
theorem onGradient_interpolates_at_half :
    let stops : Array (Rgb ℚ) := #[⟨0, 0, 0⟩, ⟨100, 300, -7⟩, ⟨255, 0, 100⟩]
    0 < stops.size ∧ onGradient stops (1 / 2) = ⟨100, 255, 0⟩ := by
  intro stops
  have nonempty : 0 < stops.size := by decide
  obtain ⟨-, hstop, -⟩ := onGradient_interpolates nonempty
  have hplace : stopPlace stops.size 1 = 1 / 2 := by
    change stopPlace 3 1 = 1 / 2
    norm_num [stopPlace]
  refine ⟨nonempty, ?_⟩
  rw [← hplace, hstop 1 (by decide)]
  decide +kernel

end PixelHost.Effect
