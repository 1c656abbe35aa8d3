import PixelHost.Proofs.Engine.Signal
import PixelHost.Sandbox.Basic

/-!
# What the sandbox lets through

The checks on the values that a script returns decide what the engine sees: a frame has as many
bytes as the sandbox was prepared for, and a delay is never so long that the reset signal would have
to shorten it. The length of the frames is fixed when the sandbox is prepared.

## Main results

* `Sandbox.invoke_outcome` — frame and delay of every successful invocation.
* `Sandbox.compile_frameLength`, `Sandbox.invoke_frameLength` — the length of the frames stays.
-/

namespace PixelHost

open Lua

/-! ### Delays -/

/-- A delay that a script asks for is counted in half of the words of 64 bits. -/
theorem Delay.fits_of_ofScript {code : Int64} {delay : Delay} (h : Delay.ofScript code = .ok delay) :
    delay.Fits := by
  unfold Delay.ofScript at h
  split at h
  · cases h
    trivial
  · split at h
    · next nonneg =>
      cases h
      rw [Delay.Fits, Int64.toNat_toUInt64_of_le nonneg]
      exact code.toNatClampNeg_lt
    · cases h

namespace Sandbox

theorem readDelay_fits {v : Value} {delay : Delay} (h : readDelay v = .ok delay) : delay.Fits := by
  cases v with
  | nil =>
    cases h
    trivial
  | int n => exact Delay.fits_of_ofScript h
  | num x =>
    rw [readDelay] at h
    split at h
    · exact Delay.fits_of_ofScript h
    · cases h
  | _ => cases h

/-! ### Frames -/

/-- Every entry of a frame gives one byte. -/
theorem readEntries_size {t : Table} {i n : Nat} {acc frame : Bytes}
    (h : readEntries t i acc n = .ok frame) : frame.size = acc.size + n := by
  induction n generalizing i acc with
  | zero =>
    cases h
    rfl
  | succ n ih =>
    rw [readEntries] at h
    split at h
    · have hsize := ih h
      rw [ByteArray.size_push] at hsize
      omega
    · cases h

theorem readFrame_size {frameLength : Nat} {t : Table} {frame : Bytes}
    (h : readFrame frameLength t = .ok frame) : frame.size = frameLength := by
  rw [readFrame] at h
  split at h
  · have hsize := readEntries_size h
    have hempty : (ByteArray.emptyWithCapacity frameLength).size = 0 := rfl
    omega
  · cases h

theorem readResults_ok {frameLength : Nat} {tables : TableRef → Table} {results : Array Value}
    {outcome : Outcome Value} (h : readResults frameLength tables results = .ok outcome) :
    outcome.frame.size = frameLength ∧ outcome.delay.Fits := by
  rw [readResults] at h
  split at h
  · next r _ =>
    cases hframe : readFrame frameLength (tables r) with
    | error e =>
      rw [hframe] at h
      cases h
    | ok frame =>
      cases hdelay : readDelay (results.getD 1 .nil) with
      | error e =>
        rw [hframe, hdelay] at h
        cases h
      | ok delay =>
        rw [hframe, hdelay] at h
        cases h
        exact ⟨readFrame_size hframe, readDelay_fits hdelay⟩
  · cases h

/-! ### Invocations -/

/-- Whatever runs on the machine, the length of the frames stays. -/
@[simp]
theorem runOn_frameLength {α : Type} (s : Sandbox) (x : Run α) :
    (s.runOn x).2.frameLength = s.frameLength := by
  rw [runOn]
  split <;> rfl

theorem compile_frameLength (s : Sandbox) (inUse : InUse Value Value) (source : String) :
    (s.compile inUse source).2.frameLength = s.frameLength := by
  have h := s.runOn_frameLength (load inUse source)
  rcases hr : s.runOn (load inUse source) with ⟨result, after⟩
  rw [hr] at h
  rw [compile, hr]
  rcases result with (_ | _) | _ | _ <;> exact h

theorem invoke_frameLength (s : Sandbox) (inUse : InUse Value Value) (chunk : Value)
    (counter : UInt32) (memo : Option Value) :
    (s.invoke inUse chunk counter memo).2.frameLength = s.frameLength := by
  have h := s.runOn_frameLength (s.call inUse chunk counter memo)
  rcases hr : s.runOn (s.call inUse chunk counter memo) with ⟨results, after⟩
  rw [hr] at h
  simp only [invoke, hr]
  split
  · exact h
  · rw [runOn_frameLength]
    exact h
  · exact h

/-- A successful invocation gives a frame of the length that was prepared for, and a delay that
fits into the reset signal. -/
theorem invoke_outcome {s : Sandbox} {inUse : InUse Value Value} {chunk : Value} {counter : UInt32}
    {memo : Option Value} {outcome : Outcome Value}
    (h : (s.invoke inUse chunk counter memo).1 = .ok outcome) :
    outcome.frame.size = s.frameLength ∧ outcome.delay.Fits := by
  have hlength := s.runOn_frameLength (s.call inUse chunk counter memo)
  rcases hr : s.runOn (s.call inUse chunk counter memo) with ⟨results, after⟩
  rw [hr] at hlength
  simp only [invoke, hr] at h
  cases results with
  | error failure => cases h
  | lost => cases h
  | ok results =>
    cases hread : readResults after.frameLength (after.machine.tables.getD · default) results with
    | error e =>
      simp only [hread] at h
      cases h
    | ok read =>
      simp only [hread] at h
      cases h
      rw [← hlength]
      exact readResults_ok hread

end Sandbox

end PixelHost
