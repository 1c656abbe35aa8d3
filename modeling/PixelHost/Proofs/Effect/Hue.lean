import Mathlib
import PixelHost.Effect.Color
import PixelHost.Proofs.Effect.Rounding

/-!
# The wheel of hues

A hue is a place on a wheel of six sectors. The channels of a color run through the same course on it,
a third of the wheel apart: over two sectors a channel is as low as the saturation allows, over two it
has the value of the color, and in between it rises and falls. So one formula gives the three channels
in all sectors, and the whole wheel has no jumps.

## Main definitions

* `Effect.modulo` — what is left of a number over the multiples of another one.
* `Effect.dip` — how far a channel is down at a place on the wheel.
* `Effect.channel`, `Effect.wheel` — a channel, and the color with its three channels.

## Main results

* `Effect.hsvChannels_eq_wheel` — the six sectors follow one formula.
* `Effect.abs_channel_sub_le` — a channel changes no faster than the hue allows.
* `Effect.wheel_greatest`, `Effect.wheel_smallest` — the greatest and the smallest channel.
* `Effect.ofHsv_closed_form` — the color of a hue, a saturation and a value.
-/

namespace PixelHost.Effect

open Scalar

/-! ### Remainders -/

/-- What is left of a number over the multiples of another one. -/
def modulo (x y : ℚ) : ℚ := x - y * ⌊x / y⌋

section

variable {x y : ℚ}

theorem modulo_of_lt (nonneg : 0 ≤ x) (lt : x < y) : modulo x y = x := by
  have hfloor : ⌊x / y⌋ = 0 :=
    Int.floor_eq_zero_iff.mpr ⟨div_nonneg nonneg (nonneg.trans lt.le),
      (div_lt_one (nonneg.trans_lt lt)).mpr lt⟩
  rw [modulo, hfloor, Int.cast_zero, mul_zero, sub_zero]

theorem modulo_add_mul (pos : 0 < y) (x : ℚ) (n : ℤ) : modulo (x + y * n) y = modulo x y := by
  have hdiv : (x + y * n) / y = x / y + n := by
    rw [add_div, mul_div_cancel_left₀ _ pos.ne']
  rw [modulo, modulo, hdiv, Int.floor_add_intCast, Int.cast_add]
  ring

theorem modulo_mem (pos : 0 < y) (x : ℚ) : 0 ≤ modulo x y ∧ modulo x y < y := by
  have hlow := Int.floor_le (x / y)
  have hhigh := Int.lt_floor_add_one (x / y)
  rw [le_div_iff₀ pos] at hlow
  rw [div_lt_iff₀ pos] at hhigh
  rw [modulo]
  constructor <;> linarith

end

/-! ### The course of a channel -/

/-- How far a channel is down at a place on the wheel of six sectors: it falls in the first one, is
down in the next two, rises in the fourth, and is up in the last two. -/
def dip (k : ℚ) : ℚ := max 0 (min k (min (4 - k) 1))

section

variable {k : ℚ}

theorem dip_mem (k : ℚ) : 0 ≤ dip k ∧ dip k ≤ 1 :=
  ⟨le_max_left _ _, max_le zero_le_one ((min_le_right _ _).trans (min_le_right _ _))⟩

theorem dip_falling (low : 0 ≤ k) (high : k ≤ 1) : dip k = k := by
  have hsecond : (1 : ℚ) ≤ 4 - k := by linarith
  rw [dip, min_eq_right hsecond, min_eq_left high, max_eq_right low]

theorem dip_down (low : 1 ≤ k) (high : k ≤ 3) : dip k = 1 := by
  have hsecond : (1 : ℚ) ≤ 4 - k := by linarith
  rw [dip, min_eq_right hsecond, min_eq_right low, max_eq_right zero_le_one]

theorem dip_rising (low : 3 ≤ k) (high : k ≤ 4) : dip k = 4 - k := by
  have hsecond : 4 - k ≤ 1 := by linarith
  have hfirst : 4 - k ≤ k := by linarith
  have hnonneg : 0 ≤ 4 - k := by linarith
  rw [dip, min_eq_left hsecond, min_eq_right hfirst, max_eq_right hnonneg]

theorem dip_up (low : 4 ≤ k) : dip k = 0 := by
  have hneg : 4 - k ≤ 0 := by linarith
  exact max_eq_left ((min_le_right _ _).trans ((min_le_left _ _).trans hneg))

end

/-- A number that is brought into the range from zero to one. -/
def unit (x : ℚ) : ℚ := max 0 (min x 1)

theorem unit_mem (x : ℚ) : 0 ≤ unit x ∧ unit x ≤ 1 :=
  ⟨le_max_left _ _, max_le zero_le_one (min_le_right _ _)⟩

/-- The place on the wheel where a hue finds the channel with a number. -/
def place (h : ℚ) (n : ℕ) : ℚ := modulo (n + 6 * h) 6

/-- The channel with a number: it is as far below the value of the color as the saturation allows. -/
def channel (h s v : ℚ) (n : ℕ) : ℚ := unit v - unit v * unit s * dip (place h n)

/-- The color with the three channels. -/
def wheel (h s v : ℚ) : Rgb ℚ := ⟨channel h s v 5, channel h s v 3, channel h s v 1⟩

/-! ### Sectors -/

/-- The hue lies in a sector, as far from its start as a part of it. -/
structure InSector (h : ℚ) (sector : ℕ) (part : ℚ) : Prop where
  lt_six : sector < 6
  nonneg : 0 ≤ part
  lt_one : part < 1
  split : Int.fract h * 6 = sector + part

theorem exists_inSector (h : ℚ) : ∃ sector part, InSector h sector part := by
  have hnonneg : 0 ≤ Int.fract h * 6 := mul_nonneg (Int.fract_nonneg h) (by norm_num)
  have hlt : Int.fract h * 6 < 6 := by linarith [Int.fract_lt_one h]
  refine ⟨⌊Int.fract h * 6⌋₊, Int.fract h * 6 - ⌊Int.fract h * 6⌋₊, ?_, ?_, ?_, ?_⟩
  · exact (Nat.floor_lt hnonneg).mpr hlt
  · exact sub_nonneg.mpr (Nat.floor_le hnonneg)
  · linarith [Nat.lt_floor_add_one (Int.fract h * 6)]
  · ring

namespace InSector

variable {h part : ℚ} {sector : ℕ} (lies : InSector h sector part)
include lies

theorem floor_eq : ⌊Int.fract h * 6⌋ = sector := by
  rw [Int.floor_eq_iff, lies.split]
  push_cast
  exact ⟨by linarith [lies.nonneg], by linarith [lies.lt_one]⟩

theorem place_eq (n : ℕ) : place h n = ((n + sector) % 6 : ℕ) + part := by
  have hrest : (n + sector) % 6 < 6 := Nat.mod_lt _ (by decide)
  have hdiv : (n + sector) % 6 + 6 * ((n + sector) / 6) = n + sector := Nat.mod_add_div _ _
  generalize (n + sector) % 6 = rest at *
  generalize (n + sector) / 6 = turns at *
  have hsplit : (h - ⌊h⌋) * 6 = sector + part := lies.split
  have hcast : (rest : ℚ) + 6 * turns = n + sector := by exact_mod_cast hdiv
  have hturns : (n : ℚ) + 6 * h = rest + part + 6 * (⌊h⌋ + turns : ℤ) := by
    push_cast
    linarith
  have hnonneg : 0 ≤ rest + part := add_nonneg rest.cast_nonneg lies.nonneg
  have hlt : rest + part < 6 := by
    have hfive : (rest : ℚ) ≤ 5 := by exact_mod_cast Nat.lt_succ_iff.mp hrest
    linarith [lies.lt_one]
  rw [place, hturns, modulo_add_mul (by norm_num), modulo_of_lt hnonneg hlt]

end InSector

/-- The channels of a hue in one of the sectors. -/
theorem hsvChannels_rat (h s v : ℚ) :
    hsvChannels h s v =
      let x := Int.fract h * 6
      let p := unit v * (1 - unit s)
      let q := unit v * (1 - unit s * (x - ⌊x⌋))
      let t := unit v * (1 - unit s * (1 - (x - ⌊x⌋)))
      match (toInt (⌊x⌋ : ℚ)).toInt % 6 with
      | 0 => ⟨unit v, t, p⟩
      | 1 => ⟨q, unit v, p⟩
      | 2 => ⟨p, unit v, t⟩
      | 3 => ⟨p, q, unit v⟩
      | 4 => ⟨t, p, unit v⟩
      | _ => ⟨unit v, p, q⟩ := by
  have hclamp (x : ℚ) : clamp (ofInt 0) (ofInt 1) x = unit x := clamp_rat zero_le_one x
  simp only [hsvChannels, hclamp]
  rfl

/-- The six sectors follow one formula. -/
theorem hsvChannels_eq_wheel (h s v : ℚ) : hsvChannels h s v = wheel h s v := by
  obtain ⟨sector, part, lies⟩ := exists_inSector h
  have hlow := lies.nonneg
  have hhigh := lies.lt_one
  have hsix := lies.lt_six
  have hsector : (toInt (⌊Int.fract h * 6⌋ : ℚ)).toInt = sector := by
    rw [lies.floor_eq, toInt_intCast] <;> omega
  have hpart : Int.fract h * 6 - ⌊Int.fract h * 6⌋ = part := by
    rw [lies.floor_eq, lies.split, Int.cast_natCast, add_sub_cancel_left]
  rw [hsvChannels_rat, wheel, channel, channel, channel, lies.place_eq, lies.place_eq, lies.place_eq]
  simp only [hsector, hpart]
  have h₀ : dip part = part := dip_falling hlow hhigh.le
  have h₁ : dip (1 + part) = 1 := dip_down (by linarith) (by linarith)
  have h₂ : dip (2 + part) = 1 := dip_down (by linarith) (by linarith)
  have h₃ : dip (3 + part) = 1 - part := by rw [dip_rising (by linarith) (by linarith)]; ring
  have h₄ : dip (4 + part) = 0 := dip_up (by linarith)
  have h₅ : dip (5 + part) = 0 := dip_up (by linarith)
  interval_cases sector <;> norm_num [h₀, h₁, h₂, h₃, h₄, h₅] <;> exact ⟨by ring, by ring⟩

/-! ### No jumps -/

theorem abs_dip_sub_le (k l : ℚ) : |dip k - dip l| ≤ |k - l| := by
  have hrise : |min (4 - k) 1 - min (4 - l) 1| ≤ |k - l| := by
    refine (abs_min_sub_min_le_max _ _ _ _).trans (max_le ?_ ?_)
    · rw [sub_sub_sub_cancel_left, abs_sub_comm]
    · rw [sub_self, abs_zero]
      exact abs_nonneg _
  rw [dip, dip, max_comm 0, max_comm 0]
  exact (abs_max_sub_max_le_abs _ _ _).trans
    ((abs_min_sub_min_le_max _ _ _ _).trans (max_le le_rfl hrise))

theorem dip_le {k : ℚ} (nonneg : 0 ≤ k) : dip k ≤ k := max_le nonneg (min_le_left _ _)

theorem dip_le_sub {k : ℚ} (le : k ≤ 6) : dip k ≤ 6 - k := by
  have hsecond : min k (min (4 - k) 1) ≤ 4 - k := (min_le_right _ _).trans (min_le_left _ _)
  exact max_le (by linarith) (by linarith)

/-- The course of a channel has no jumps, for it ends as it begins. Places in different turns are both
near an end of the turn, and what is between them is at least the sum of their distances from it. -/
theorem abs_dip_modulo_sub_le (x y : ℚ) : |dip (modulo x 6) - dip (modulo y 6)| ≤ |x - y| := by
  wlog hle : x ≤ y generalizing x y
  · rw [abs_sub_comm, abs_sub_comm x]
    exact this y x (le_of_not_ge hle)
  obtain ⟨hx, hx'⟩ := modulo_mem (by norm_num : (0 : ℚ) < 6) x
  obtain ⟨hy, hy'⟩ := modulo_mem (by norm_num : (0 : ℚ) < 6) y
  have hfloor : ⌊x / 6⌋ ≤ ⌊y / 6⌋ := Int.floor_mono (div_le_div_of_nonneg_right hle (by norm_num))
  rcases hfloor.lt_or_eq with hlt | heq
  · have hgap : (⌊x / 6⌋ : ℚ) + 1 ≤ ⌊y / 6⌋ := by exact_mod_cast hlt
    have hends : dip (modulo x 6) + dip (modulo y 6) ≤ y - x := by
      have hlast := dip_le_sub hx'.le
      have hfirst := dip_le hy
      simp only [modulo] at hlast hfirst ⊢
      linarith
    have hxdip := (dip_mem (modulo x 6)).1
    have hydip := (dip_mem (modulo y 6)).1
    rw [abs_sub_comm x, abs_of_nonneg (sub_nonneg.mpr hle), abs_le]
    constructor <;> linarith
  · have hsame : modulo x 6 - modulo y 6 = x - y := by
      rw [modulo, modulo, heq]
      ring
    rw [← hsame]
    exact abs_dip_sub_le _ _

section

variable (s v : ℚ) (n : ℕ)

/-- A channel changes no faster than six times as much as the hue. -/
theorem abs_channel_sub_le (h h' : ℚ) :
    |channel h s v n - channel h' s v n| ≤ 6 * |h - h'| := by
  obtain ⟨hs, hs'⟩ := unit_mem s
  obtain ⟨hv, hv'⟩ := unit_mem v
  have hpart : 0 ≤ unit v * unit s ∧ unit v * unit s ≤ 1 :=
    ⟨mul_nonneg hv hs, mul_le_one₀ hv' hs hs'⟩
  have hplaces : |dip (place h' n) - dip (place h n)| ≤ 6 * |h - h'| := by
    have hcourse := abs_dip_modulo_sub_le (n + 6 * h') (n + 6 * h)
    rwa [add_sub_add_left_eq_sub, ← mul_sub, abs_mul, abs_of_pos (by norm_num : (0 : ℚ) < 6),
      abs_sub_comm h'] at hcourse
  calc |channel h s v n - channel h' s v n|
      = unit v * unit s * |dip (place h' n) - dip (place h n)| := by
        rw [channel, channel, sub_sub_sub_cancel_left, ← mul_sub, abs_mul, abs_of_nonneg hpart.1]
    _ ≤ |dip (place h' n) - dip (place h n)| := mul_le_of_le_one_left (abs_nonneg _) hpart.2
    _ ≤ 6 * |h - h'| := hplaces

theorem continuous_channel : Continuous fun h => channel h s v n := by
  refine (LipschitzWith.of_dist_le_mul (K := 6) fun h h' => ?_).continuous
  have hcast : ((|channel h s v n - channel h' s v n| : ℚ) : ℝ) ≤ (6 * |h - h'| : ℚ) :=
    Rat.cast_le.mpr (abs_channel_sub_le s v n h h')
  push_cast at hcast
  rw [Rat.dist_eq, Rat.dist_eq]
  exact hcast

end

/-! ### The greatest and the smallest channel -/

theorem channel_le (h s v : ℚ) (n : ℕ) : channel h s v n ≤ unit v := by
  have hdown : 0 ≤ unit v * unit s * dip (place h n) :=
    mul_nonneg (mul_nonneg (unit_mem v).1 (unit_mem s).1) (dip_mem _).1
  rw [channel]
  linarith

theorem le_channel (h s v : ℚ) (n : ℕ) : unit v * (1 - unit s) ≤ channel h s v n := by
  have hdown : unit v * unit s * dip (place h n) ≤ unit v * unit s :=
    mul_le_of_le_one_right (mul_nonneg (unit_mem v).1 (unit_mem s).1) (dip_mem _).2
  rw [channel]
  linarith

/-- One of the channels is up. -/
theorem exists_up (h : ℚ) : ∃ n ∈ [5, 3, 1], dip (place h n) = 0 := by
  obtain ⟨sector, part, lies⟩ := exists_inSector h
  have hsix := lies.lt_six
  have hup : ∃ n ∈ [5, 3, 1], 4 ≤ (n + sector) % 6 := by
    interval_cases sector <;> decide
  obtain ⟨n, hn, hfour⟩ := hup
  have hcast : (4 : ℚ) ≤ ((n + sector) % 6 : ℕ) := by exact_mod_cast hfour
  refine ⟨n, hn, ?_⟩
  rw [lies.place_eq, dip_up (by linarith [lies.nonneg])]

/-- One of the channels is down. -/
theorem exists_down (h : ℚ) : ∃ n ∈ [5, 3, 1], dip (place h n) = 1 := by
  obtain ⟨sector, part, lies⟩ := exists_inSector h
  have hsix := lies.lt_six
  have hdown : ∃ n ∈ [5, 3, 1], 1 ≤ (n + sector) % 6 ∧ (n + sector) % 6 ≤ 2 := by
    interval_cases sector <;> decide
  obtain ⟨n, hn, hone, htwo⟩ := hdown
  have hlow : (1 : ℚ) ≤ ((n + sector) % 6 : ℕ) := by exact_mod_cast hone
  have hhigh : (((n + sector) % 6 : ℕ) : ℚ) ≤ 2 := by exact_mod_cast htwo
  refine ⟨n, hn, ?_⟩
  rw [lies.place_eq, dip_down (by linarith [lies.nonneg]) (by linarith [lies.lt_one])]

/-- The greatest of the channels. -/
def Rgb.greatest {α : Type} [Max α] (c : Rgb α) : α := max (max c.red c.green) c.blue

/-- The smallest of the channels. -/
def Rgb.smallest {α : Type} [Min α] (c : Rgb α) : α := min (min c.red c.green) c.blue

section

variable {α β : Type} [LinearOrder α] [LinearOrder β] {f : α → β} (mono : Monotone f) (c : Rgb α)
include mono

theorem Rgb.greatest_map : (c.map f).greatest = f c.greatest := by
  rw [greatest, greatest, mono.map_max, mono.map_max]
  rfl

theorem Rgb.smallest_map : (c.map f).smallest = f c.smallest := by
  rw [smallest, smallest, mono.map_min, mono.map_min]
  rfl

end

section

variable (h s v : ℚ) {n : ℕ} (hn : n ∈ [5, 3, 1])
include hn

theorem channel_le_greatest : channel h s v n ≤ (wheel h s v).greatest := by
  simp only [List.mem_cons, List.not_mem_nil, or_false] at hn
  rcases hn with rfl | rfl | rfl
  · exact (le_max_left _ _).trans (le_max_left _ _)
  · exact (le_max_right _ _).trans (le_max_left _ _)
  · exact le_max_right _ _

theorem smallest_le_channel : (wheel h s v).smallest ≤ channel h s v n := by
  simp only [List.mem_cons, List.not_mem_nil, or_false] at hn
  rcases hn with rfl | rfl | rfl
  · exact (min_le_left _ _).trans (min_le_left _ _)
  · exact (min_le_left _ _).trans (min_le_right _ _)
  · exact min_le_right _ _

end

theorem wheel_greatest (h s v : ℚ) : (wheel h s v).greatest = unit v := by
  apply le_antisymm
  · exact max_le (max_le (channel_le h s v 5) (channel_le h s v 3)) (channel_le h s v 1)
  · obtain ⟨n, hn, hup⟩ := exists_up h
    have hchannel : channel h s v n = unit v := by rw [channel, hup, mul_zero, sub_zero]
    exact hchannel ▸ channel_le_greatest h s v hn

theorem wheel_smallest (h s v : ℚ) : (wheel h s v).smallest = unit v * (1 - unit s) := by
  apply le_antisymm
  · obtain ⟨n, hn, hdown⟩ := exists_down h
    have hchannel : channel h s v n = unit v * (1 - unit s) := by
      rw [channel, hdown]
      ring
    exact hchannel ▸ smallest_le_channel h s v hn
  · exact le_min (le_min (le_channel h s v 5) (le_channel h s v 3)) (le_channel h s v 1)

/-! ### Colors -/

theorem ofHsv_eq_wheel (h s v : ℚ) :
    ofHsv h s v = (wheel h s v).map fun x => toByte (255 * x) := by
  rw [ofHsv, hsvChannels_eq_wheel]
  simp only [mul_comm (255 : ℚ)]
  rfl

/-- A hue that is turned around the wheel is the same one. -/
theorem ofHsv_add_intCast (h s v : ℚ) (turns : ℤ) : ofHsv (h + turns) s v = ofHsv h s v := by
  have hfract : fraction (h + turns) = fraction h := by
    rw [fraction_rat, fraction_rat, Int.fract_add_intCast]
  rw [ofHsv, ofHsv, hsvChannels, hsvChannels, hfract]

/-- The color of a hue, a saturation and a value. Its channels are those on the wheel of hues, rounded
to color values: one formula for all sectors. So a hue may be turned around the wheel in either
direction, and before they are rounded the channels have no jumps anywhere. The greatest of them is the
value, the smallest the value without the saturated part, and all are color values. -/
theorem ofHsv_closed_form (s v : ℚ) :
    (∀ h, hsvChannels h s v = ⟨channel h s v 5, channel h s v 3, channel h s v 1⟩ ∧
      ofHsv h s v = ⟨toByte (255 * channel h s v 5), toByte (255 * channel h s v 3),
        toByte (255 * channel h s v 1)⟩) ∧
    (∀ (h : ℚ) (turns : ℤ), ofHsv (h + turns) s v = ofHsv h s v) ∧
    (∀ n, (Continuous fun h => channel h s v n) ∧
      ∀ h h', |channel h s v n - channel h' s v n| ≤ 6 * |h - h'|) ∧
    ∀ h, let color := (ofHsv h s v).map Int64.toInt
      color.greatest = (toByte (255 * unit v)).toInt ∧
      color.smallest = (toByte (255 * (unit v * (1 - unit s)))).toInt ∧
      0 ≤ color.smallest ∧ color.greatest ≤ 255 := by
  have hmono : Monotone fun x : ℚ => (toByte (255 * x)).toInt :=
    toByte_mono.comp (monotone_mul_left_of_nonneg (by norm_num))
  refine ⟨fun h => ⟨hsvChannels_eq_wheel h s v, ofHsv_eq_wheel h s v⟩,
    fun h turns => ofHsv_add_intCast h s v turns,
    fun n => ⟨continuous_channel s v n, abs_channel_sub_le s v n⟩, fun h => ?_⟩
  intro color
  have hcolor : color = (wheel h s v).map fun x => (toByte (255 * x)).toInt :=
    congrArg (Rgb.map Int64.toInt) (ofHsv_eq_wheel h s v)
  have hgreatest : color.greatest = (toByte (255 * unit v)).toInt := by
    rw [hcolor, Rgb.greatest_map hmono, wheel_greatest]
  have hsmallest : color.smallest = (toByte (255 * (unit v * (1 - unit s)))).toInt := by
    rw [hcolor, Rgb.smallest_map hmono, wheel_smallest]
  refine ⟨hgreatest, hsmallest, ?_, ?_⟩
  · rw [hsmallest]
    exact (toByte_mem _).1
  · rw [hgreatest]
    exact (toByte_mem _).2

example : ofHsv (-2 / 3 : ℚ) 1 1 = ⟨0, 255, 0⟩ := by decide +kernel

end PixelHost.Effect
