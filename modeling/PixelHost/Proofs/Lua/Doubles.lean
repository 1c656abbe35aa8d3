import Mathlib.Algebra.Order.Floor.Ring
import Mathlib.Algebra.Order.Field.Power
import Mathlib.Data.Rat.Floor
import PixelHost.Binary64

/-!
# The values of doubles

A finite double stands for a rational number. The operations on doubles that give integers are
those on rational numbers: the floor, the ceiling, and the integer that a double is.

## Main definitions

* `Binary64.value?` — the number that a double stands for.

## Main results

* `Binary64.floor?_eq`, `Binary64.ceil?_eq` — floor and ceiling.
* `Binary64.toInt?_eq_some_iff` — the integer that a double is.
* `Binary64.toInt_saturate` — the nearest integer of 64 bits.
-/

namespace PixelHost.Binary64

/-- A magnitude with a sign. -/
def signed (negative : Bool) (m : Nat) : Int := if negative then -Int.ofNat m else Int.ofNat m

/-- The number that a double stands for. Infinities and not-a-numbers stand for none. -/
def value? (x : Float) : Option ℚ :=
  match view x with
  | .finite negative m e => some (signed negative m * 2 ^ e)
  | _ => none

theorem signed_not (negative : Bool) (m : Nat) : signed (!negative) m = -signed negative m := by
  cases negative
  · rfl
  · exact (Int.neg_neg _).symm

/-! ### Floor and ceiling -/

theorem floorOf_eq (negative : Bool) (m : Nat) (e : Int) :
    floorOf negative m e = ⌊(signed negative m : ℚ) * 2 ^ e⌋ := by
  rw [floorOf]
  change (if e ≥ 0 then signed negative m * Nat.pow 2 e.toNat
    else Int.fdiv (signed negative m) (Nat.pow 2 (-e).toNat)) = _
  split
  · next nonneg =>
    obtain ⟨n, rfl⟩ := Int.eq_ofNat_of_zero_le nonneg
    have hcast : (signed negative m : ℚ) * 2 ^ (n : ℤ) = ((signed negative m * 2 ^ n : ℤ) : ℚ) := by
      push_cast
      rw [zpow_natCast]
    rw [hcast, Int.floor_intCast]
    simp
  · next neg =>
    obtain ⟨n, hn⟩ := Int.eq_ofNat_of_zero_le (show 0 ≤ -e by omega)
    obtain rfl : e = -(n : ℤ) := by omega
    have hpow : ((Nat.pow 2 (- -(n : ℤ)).toNat : ℕ) : ℤ) = ((2 ^ n : ℕ) : ℤ) := by simp
    rw [hpow, Int.fdiv_eq_ediv_of_nonneg _ (Int.natCast_nonneg _), zpow_neg, zpow_natCast,
      ← div_eq_mul_inv, ← Rat.floor_intCast_div_natCast]
    norm_num

theorem floor?_eq (x : Float) : floor? x = (value? x).map (⌊·⌋) := by
  rw [floor?, value?]
  cases view x with
  | finite negative m e => exact congrArg some (floorOf_eq negative m e)
  | _ => rfl

theorem ceil?_eq (x : Float) : ceil? x = (value? x).map (⌈·⌉) := by
  rw [ceil?, value?]
  cases view x with
  | finite negative m e =>
    refine congrArg some ?_
    rw [floorOf_eq, signed_not, Int.cast_neg, neg_mul, Int.floor_neg, neg_neg]
  | _ => rfl

/-! ### Integers -/

/-- A double is an integer if it stands for that integer. -/
theorem toInt?_eq_some_iff {x : Float} {n : Int} : toInt? x = some n ↔ value? x = some (n : ℚ) := by
  rw [toInt?, floor?_eq, ceil?_eq]
  cases value? x with
  | none => simp
  | some q =>
    simp only [Option.map_some, Option.some.injEq]
    constructor
    · intro h
      split at h
      · next heq =>
        obtain rfl := Option.some.inj h
        exact le_antisymm (heq ▸ Int.le_ceil q) (Int.floor_le q)
      · cases h
    · rintro rfl
      rw [Int.floor_intCast, Int.ceil_intCast, if_pos rfl]

/-- The nearest integer of 64 bits. -/
theorem toInt_saturate (n : Int) :
    (saturate n).toInt = max Int64.minValue.toInt (min n Int64.maxValue.toInt) := by
  have hmin : Int64.minValue.toInt = -9223372036854775808 := rfl
  have hmax : Int64.maxValue.toInt = 9223372036854775807 := rfl
  rw [saturate]
  split
  · omega
  · split
    · omega
    · rw [Int64.toInt_ofInt_of_le] <;> omega

end PixelHost.Binary64
