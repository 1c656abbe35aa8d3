import Mathlib.Tactic.SplitIfs
import PixelHost.Engine.Scheduler

/-!
# The reset signal as a place for one delay

The signal keeps a request in one signed word. The two values that stand for something else are
never numbers of milliseconds, so a request is pending exactly after it was raised and before it was
taken, and a delay that fits into the word comes back as it was.

## Main definitions

* `Delay.Fits` — the delay fits into the word.

## Main results

* `ResetSignal.take_raise` — a delay that fits comes back as it was.
* `ResetSignal.isPending_raise`, `ResetSignal.isPending_take` — when a request is pending.
-/

namespace PixelHost

/-- The delay fits into a signed word of 64 bits. -/
def Delay.Fits : Delay → Prop
  | .millis ms => ms.toNat < 0x8000000000000000
  | .forever => True

namespace ResetSignal

/-- Every number of milliseconds is kept as an integer that is not negative. -/
theorem encode_millis_nonneg (ms : UInt64) : 0 ≤ (encode (.millis ms)).toInt := by
  have hle : min ms.toNat 0x7FFFFFFFFFFFFFFF < 2 ^ 63 := by omega
  rw [encode, Int64.toInt_ofNat_of_lt hle]
  exact Int.natCast_nonneg _

theorem encode_ne_noRequest (delay : Delay) : encode delay ≠ noRequest := by
  cases delay with
  | forever => decide
  | millis ms =>
    intro h
    have hneg : (encode (.millis ms)).toInt = noRequest.toInt := congrArg Int64.toInt h
    have hpos := encode_millis_nonneg ms
    have hno : noRequest.toInt < 0 := by decide
    omega

theorem encode_millis_ne_forever (ms : UInt64) : encode (.millis ms) ≠ foreverRequest := by
  intro h
  have hneg : (encode (.millis ms)).toInt = foreverRequest.toInt := congrArg Int64.toInt h
  have hpos := encode_millis_nonneg ms
  have hno : foreverRequest.toInt < 0 := by decide
  omega

theorem encode_millis_toUInt64 {ms : UInt64} (fits : ms.toNat < 0x8000000000000000) :
    (encode (.millis ms)).toUInt64 = ms := by
  have hmin : min ms.toNat 0x7FFFFFFFFFFFFFFF = ms.toNat := by omega
  rw [encode, hmin, Int64.toUInt64_ofNat', UInt64.ofNat_toNat]

@[simp]
theorem isPending_raise (r : ResetSignal) (delay : Delay) : (r.raise delay).isPending = true := by
  simp only [isPending, raise, bne_iff_ne, ne_eq, encode_ne_noRequest, not_false_eq_true]

@[simp]
theorem isPending_take (r : ResetSignal) : r.take.2.isPending = false := by
  simp only [take, isPending, bne_self_eq_false]

/-- A request is taken once. -/
@[simp]
theorem take_take (r : ResetSignal) : r.take.2.take.1 = none := rfl

/-- A request is taken exactly if one is pending. -/
theorem isSome_take (r : ResetSignal) : r.take.1.isSome = r.isPending := by
  simp only [take, isPending]
  by_cases hn : r.pending = noRequest
  · simp only [hn, ite_true, Option.isSome_none, bne_self_eq_false]
  · rw [bne_iff_ne.mpr hn]
    split_ifs <;> rfl

theorem isPending_of_take {r : ResetSignal} {delay : Delay} (h : r.take.1 = some delay) :
    r.isPending = true := by
  rw [← isSome_take, h, Option.isSome_some]

theorem not_isPending_of_take {r : ResetSignal} (h : r.take.1 = none) : r.isPending = false := by
  rw [← isSome_take, h, Option.isSome_none]

/-- A delay that fits comes back as it was. -/
theorem take_raise (r : ResetSignal) {delay : Delay} (fits : delay.Fits) :
    (r.raise delay).take.1 = some delay := by
  cases delay with
  | forever => rfl
  | millis ms =>
    simp only [take, raise, encode_ne_noRequest, encode_millis_ne_forever, ite_false,
      encode_millis_toUInt64 fits]

end ResetSignal

end PixelHost
