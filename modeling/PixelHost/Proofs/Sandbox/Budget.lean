import PixelHost.Proofs.Lua.Parts
import PixelHost.Proofs.Sandbox.Alike

/-!
# The budget of instructions

An invocation starts with its budget, and nothing that a program does changes how its instructions are
counted. Until the first one is stopped, the budget makes no difference: the invocation ends as it
would with a larger budget or with none. Which instructions are stopped is known from their number
alone. To be stopped is an error that the program may catch, so the budget does not bound how many
instructions there are in all.

## Main definitions

* `Sandbox.withLimit` — the sandbox with another budget.

## Main results

* `Sandbox.invoke_meter` — instructions are counted from the budget on, whatever a program does.
* `Sandbox.invoke_within_budget` — an invocation within its budget.
-/

namespace PixelHost.Sandbox

open Lua

theorem checkInterval_pos : 0 < checkInterval := by decide

/-! ### All that a machine holds -/

/-- All of a machine, as a realm. -/
def whole (m : Machine) (metering : Metering) : Realm where
  table _ := True
  cell _ := True
  thread _ := True
  iteration _ := True
  native _ := True
  names := (m.globals, m.stringMetatable)
  exact := True
  start := m.heap
  anchors := []
  metering := metering
  thread_zero := trivial
  native_of_arises _ _ := trivial
  exact_of_collects := id

section

variable (m : Machine) (metering : Metering)

theorem whole_has (t : Target) : (whole m metering).has t := by cases t <;> trivial

theorem whole_value (v : Value) : (whole m metering).value v :=
  Realm.value_iff.mpr fun t _ => whole_has m metering t

theorem whole_values (vs : Array Value) : (whole m metering).values vs :=
  fun v _ => whole_value m metering v

theorem whole_core : (whole m metering).core m where
  stack := whole_values m metering _
  frames := Realm.frames_iff.mpr fun t _ => whole_has m metering t
  openCells := fun _ _ => trivial
  closure := fun _ _ => trivial
  thread := trivial
  names := rfl
  globals := trivial
  stringMetatable := trivial
  loaded := fun _ => trivial
  bounded := .inl trivial

variable {m metering}

/-- A machine agrees with itself on all that it holds, whatever was counted. -/
theorem whole_agree {μ : Meter} (h : metering.related m.meter μ) :
    (whole m metering).Agree m { m.heap with meter := μ } :=
  .of_closed (fun _ _ t _ => whole_has m metering t) (fun t _ => whole_has m metering t)
    (fun t _ => by cases t <;> first | rfl | trivial) ⟨rfl, rfl, rfl, rfl⟩ ⟨rfl, rfl, rfl, rfl⟩
    (whole_core m metering) h (fun _ => rfl) fun _ h => nomatch h

/-- Machines that agree on all that there is differ in what was counted only. -/
theorem withHeap_of_agree {m' : Machine} {h : Heap} (agree : (whole m metering).Agree m' h) :
    m'.withHeap h = m'.withMeter h.meter := by
  rw [agree.same trivial]
  rfl

end

/-! ### The call -/

/-- The sandbox with another budget. -/
def withLimit (s : Sandbox) (limit : Nat) : Sandbox := { s with instructionLimit := limit }

section

variable (s : Sandbox) {limit : Nat} (inUse : InUse Value Value) (chunk : Value) (counter : UInt32)
variable (memo : Option Value)

/-- The machine that a program is called on. -/
def armed : Machine := (keeping inUse s.machine).withMeter (.full checkInterval s.instructionLimit)

/-- A call goes on as it would with a larger budget, until it may be stopped. -/
theorem call_larger (hlimit : limit = 0 ∨ s.instructionLimit ≤ limit) :
    (whole (s.armed inUse) (.larger checkInterval_pos hlimit)).Same
      (.full checkInterval s.instructionLimit) Plain (s.call inUse chunk counter memo s.machine)
      ((s.withLimit limit).call inUse chunk counter memo s.machine) := by
  let ρ := whole (s.armed inUse) (.larger checkInterval_pos hlimit)
  have hagree : ρ.Agree (s.armed inUse) { (s.armed inUse).heap with
      meter := .full checkInterval limit } := whole_agree ⟨0, rfl, .inr rfl⟩
  have hcall : Stays ρ Plain (Run.callFromOutside s.allowance chunk
      #[.ofNat counter.toNat, memo.getD .nil]) :=
    (Run.callFromOutside_stays _ (whole_value _ _ _) (whole_values _ _ _)).mono fun _ _ => trivial
  exact hcall _ _ hagree

end

/-! ### What comes after the call -/

/-- The end of an invocation. After a failure the memory is counted. -/
def concluded (s : Sandbox) (outcome : Ending ScriptError (Outcome Value)) (m : Machine) :
    Ending ScriptError (Outcome Value) × Sandbox :=
  (outcome, { s with machine := match outcome with
    | .error _ => m.recounted
    | .ok _ | .lost => m })

section

variable {s : Sandbox} {limit : Nat} {inUse : InUse Value Value} {chunk : Value}
variable {counter : UInt32} {memo : Option Value} {m : Machine}

theorem invoke_of_ok {results : Array Value}
    (h : s.call inUse chunk counter memo s.machine = .ok results m) :
    s.invoke inUse chunk counter memo =
      s.concluded (.ofExcept (readResults s.frameLength (m.tables.getD · default) results)) m := by
  unfold invoke runOn
  rw [h]
  dsimp only
  cases readResults s.frameLength (m.tables.getD · default) results <;> rfl

theorem invoke_of_error {fault : Fault}
    (h : s.call inUse chunk counter memo s.machine = .error fault m) :
    s.invoke inUse chunk counter memo =
      s.concluded (.failing ((failureOf? fault).map ScriptError.ofFailure)) m := by
  unfold invoke runOn
  rw [h]
  dsimp only
  cases failureOf? fault <;> rfl

variable {outcome : Ending ScriptError (Outcome Value)}

theorem concluded_meter : (s.concluded outcome m).2.machine.meter = m.meter := by
  cases outcome with
  | ok o => rfl
  | error e => exact Run.recounted_meter m
  | lost => rfl

/-- An invocation ends alike whatever was counted of its instructions. -/
theorem concluded_withMeter (μ : Meter) :
    (s.withLimit limit).concluded outcome (m.withMeter μ) =
      ((s.concluded outcome m).1, { (s.concluded outcome m).2.withLimit limit with
        machine := (s.concluded outcome m).2.machine.withMeter μ }) := by
  cases outcome with
  | ok o => rfl
  | error e =>
    have hrecounted := Run.recounted_withMeter m μ
    exact congrArg (fun m => ((.error e : Ending ScriptError (Outcome Value)),
      ({ s.withLimit limit with machine := m } : Sandbox))) hrecounted
  | lost => rfl

end

/-! ### Invocations -/

section

variable (s : Sandbox) {limit : Nat} (inUse : InUse Value Value) (chunk : Value) (counter : UInt32)
variable (memo : Option Value)

/-- An invocation ends as it would with a larger budget, unless its count is late. -/
theorem invoke_larger (hlimit : limit = 0 ∨ s.instructionLimit ≤ limit) :
    let metering := Metering.larger checkInterval_pos hlimit
    let r := s.invoke inUse chunk counter memo
    let r' := (s.withLimit limit).invoke inUse chunk counter memo
    metering.related r.2.machine.meter r.2.machine.meter ∧
      (metering.late r.2.machine.meter ∨ ∃ μ,
        r' = (r.1, { r.2.withLimit limit with machine := r.2.machine.withMeter μ })) := by
  intro metering r r'
  have hsame := s.call_larger inUse chunk counter memo hlimit
  generalize hx : s.call inUse chunk counter memo s.machine = x at hsame
  generalize hx' : (s.withLimit limit).call inUse chunk counter memo s.machine = x' at hsame
  cases hsame with
  | @ok results m h _ agree =>
    rw [withHeap_of_agree agree] at hx'
    simp only [r, r', invoke_of_ok hx, invoke_of_ok (s := s.withLimit limit) hx', concluded_meter]
    exact ⟨agree.self.meter, .inr ⟨h.meter, concluded_withMeter h.meter⟩⟩
  | @error fault m h _ agree =>
    rw [withHeap_of_agree agree] at hx'
    simp only [r, r', invoke_of_error hx, invoke_of_error (s := s.withLimit limit) hx',
      concluded_meter]
    exact ⟨agree.self.meter, .inr ⟨h.meter, concluded_withMeter h.meter⟩⟩
  | lateOk _ agree late =>
    simp only [r, invoke_of_ok hx, concluded_meter]
    exact ⟨agree.meter, .inl late⟩
  | lateError _ agree late =>
    simp only [r, invoke_of_error hx, concluded_meter]
    exact ⟨agree.meter, .inl late⟩

/-- Instructions are counted from the budget on, whatever the program does. -/
theorem invoke_meter : let μ := (s.invoke inUse chunk counter memo).2.machine.meter
    μ = (Meter.full checkInterval s.instructionLimit).after μ.counted := by
  intro μ
  obtain ⟨⟨n, hn, -⟩, -⟩ := s.invoke_larger inUse chunk counter memo (.inl rfl)
  change μ = _ at hn
  by_cases hlimit : s.instructionLimit = 0
  · rw [hn, hlimit, Meter.after_full_zero, Meter.after_full_zero]
  · rw [hn, Meter.counted_after checkInterval_pos hlimit]

/-- An invocation that counts too few instructions for one of them to be stopped ends as it would with
a larger budget, or with none. -/
theorem invoke_within_budget (hbudget : s.instructionLimit ≠ 0)
    (hlimit : limit = 0 ∨ s.instructionLimit ≤ limit)
    (hwithin : (s.invoke inUse chunk counter memo).2.machine.meter.counted <
      Meter.allowed s.instructionLimit + checkInterval) :
    let r := s.invoke inUse chunk counter memo
    ∃ μ, (s.withLimit limit).invoke inUse chunk counter memo =
      (r.1, { r.2.withLimit limit with machine := r.2.machine.withMeter μ }) := by
  intro r
  obtain ⟨-, ⟨n, hn, hlate⟩ | hsame⟩ := s.invoke_larger inUse chunk counter memo hlimit
  · rw [hlate, Meter.counted_after checkInterval_pos hbudget] at hwithin
    omega
  · exact hsame

end

end PixelHost.Sandbox
