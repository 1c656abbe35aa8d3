import PixelHost.Proofs.Sandbox.Programs

/-!
# Sandboxes that differ outside of a realm

Two sandboxes that differ only outside of a realm treat the programs of the realm alike: they give
the same outcomes, and they differ only outside of the realm afterwards. The values that the host
keeps may be others, unless the realm is exact.

## Main definitions

* `Sandbox.Alike` — two sandboxes differ only outside of a realm.

## Main results

* `Sandbox.Alike.compile` — compiling a program.
* `Sandbox.Alike.invoke` — invoking a program.
-/

namespace PixelHost.Sandbox

open Lua

/-- The host keeps the values that are in use outside of a realm. -/
def Keeps (ρ : Realm) (inUse : InUse Value Value) : Prop :=
  ∀ v ∈ ρ.anchors, v ∈ inUse.chunks ++ inUse.memos

/-- Two sandboxes differ only outside of a realm, whatever the host keeps next. They count instructions
alike. -/
structure Alike (ρ : Realm) (s t : Sandbox) : Prop where
  frameLength : t.frameLength = s.frameLength
  instructionLimit : t.instructionLimit = s.instructionLimit
  allowance : t.allowance = s.allowance
  metering : ρ.metering = .same
  agree : ∀ i j, Keeps ρ i → (ρ.exact → j = i) → ∃ h, ρ.Agree (keeping i s.machine).rested h ∧
    (keeping j t.machine).rested = (keeping i s.machine).rested.withHeap h

variable {ρ : Realm} {s t : Sandbox} {i j : InUse Value Value}

/-- Machines that agree do so at rest, whatever the host keeps. -/
theorem agree_keeping {m : Machine} {h : Heap} (agree : ρ.Agree m h) (hi : Keeps ρ i)
    (hj : ρ.exact → j = i) : ∃ h', ρ.Agree (keeping i m).rested h' ∧
      (keeping j (m.withHeap h)).rested = (keeping i m).rested.withHeap h' :=
  ⟨{ h with
      threads := h.threads.setIfInBounds 0 { status := .running }
      waiting := []
      held := (j.chunks ++ j.memos).toArray },
    { agree with
      threads := agree.threads.set ρ.thread_zero
        { Realm.coroutine.empty with stack := .empty }
      core := { agree.core with
        stack := .replicate _
        frames := Realm.frames_nil
        openCells := fun _ h => nomatch h
        closure := fun _ h => nomatch h
        thread := ρ.thread_zero }
      same := fun e => by rw [agree.same e, hj e]; rfl
      held := fun v hv => List.mem_toArray.mpr (hi v hv) }, rfl⟩

/-- Sandboxes whose machines agree are alike. -/
theorem Alike.withMachine (alike : Alike ρ s t) {m : Machine} {h : Heap} (agree : ρ.Agree m h) :
    Alike ρ { s with machine := m } { t with machine := m.withHeap h } where
  frameLength := alike.frameLength
  instructionLimit := alike.instructionLimit
  allowance := alike.allowance
  metering := alike.metering
  agree _ _ hi hj := agree_keeping agree hi hj

theorem Alike.punctual (alike : Alike ρ s t) (μ : Meter) : ¬ρ.metering.late μ := by
  rw [alike.metering]
  exact id

/-- A program is compiled alike. -/
theorem Alike.compile (alike : Alike ρ s t) (hi : Keeps ρ i) (hj : ρ.exact → j = i)
    (source : String) : (t.compile j source).1 = (s.compile i source).1 ∧
      (∀ f, (s.compile i source).1 = .ok f → ρ.value f) ∧
      Alike ρ (s.compile i source).2 (t.compile j source).2 := by
  obtain ⟨h, agree, heq⟩ := alike.agree i j hi hj
  have hsame := loadAtRest_stays source _ h agree
  rw [← heq, ← load_eq, ← load_eq] at hsame
  unfold Sandbox.compile runOn
  generalize load i source s.machine = r at hsame
  generalize load j source t.machine = r' at hsame
  cases hsame with
  | @ok result m h hresult agree =>
    have halike := alike.withMachine agree
    cases result with
    | ok f =>
      refine ⟨rfl, ?_, halike⟩
      rintro _ ⟨⟩
      exact hresult
    | error failure =>
      refine ⟨rfl, ?_, halike⟩
      rintro _ ⟨⟩
  | @error fault m h hfault agree =>
    have halike := alike.withMachine agree
    dsimp only
    cases failureOf? fault <;>
    · refine ⟨rfl, ?_, halike⟩
      rintro _ ⟨⟩
  | lateOk _ _ late => exact absurd late (alike.punctual _)
  | lateError _ _ late => exact absurd late (alike.punctual _)

/-- The memory is counted alike. -/
theorem Alike.recount (alike : Alike ρ s t) (hexact : ρ.exact) {m : Machine} {h : Heap}
    (agree : ρ.Agree m h) : Alike ρ (({ s with machine := m } : Sandbox).runOn Run.recount).2
      (({ t with machine := m.withHeap h } : Sandbox).runOn Run.recount).2 := by
  have hsame := Run.recount_stays hexact m h agree
  unfold runOn
  dsimp only
  generalize Run.recount m = r at hsame
  generalize Run.recount (m.withHeap h) = r' at hsame
  cases hsame with
  | ok _ agree => exact alike.withMachine agree
  | error _ agree => exact alike.withMachine agree
  | lateOk _ _ late => exact absurd late (alike.punctual _)
  | lateError _ _ late => exact absurd late (alike.punctual _)

/-- A program is invoked alike. After a failure the memory is counted, which only in an exact realm
leaves the sandboxes alike. -/
theorem Alike.invoke (alike : Alike ρ s t) (hi : Keeps ρ i) (hj : ρ.exact → j = i) {chunk : Value}
    (hchunk : ρ.value chunk) (counter : UInt32) {memo : Option Value}
    (hmemo : ∀ v ∈ memo, ρ.value v) :
    (t.invoke j chunk counter memo).1 = (s.invoke i chunk counter memo).1 ∧
      (∀ o, (s.invoke i chunk counter memo).1 = .ok o → ∀ v ∈ o.memo, ρ.value v) ∧
      (ρ.exact ∨ (∃ o, (s.invoke i chunk counter memo).1 = .ok o) →
        Alike ρ (s.invoke i chunk counter memo).2 (t.invoke j chunk counter memo).2) := by
  obtain ⟨h, agree, heq⟩ := alike.agree i j hi hj
  have hsame := callAtRest_stays alike.metering s hchunk counter hmemo _ h agree
  have hcall : t.call j chunk counter memo t.machine =
      s.callAtRest chunk counter memo (keeping j t.machine).rested := by
    rw [← call_eq s j chunk counter memo, call, call, alike.instructionLimit, alike.allowance]
  rw [← heq, ← hcall, ← call_eq] at hsame
  unfold Sandbox.invoke runOn
  generalize s.call i chunk counter memo s.machine = r at hsame
  generalize t.call j chunk counter memo t.machine = r' at hsame
  cases hsame with
  | @ok results m h hresults agree =>
    have hread : readResults t.frameLength ((m.withHeap h).tables.getD · default) results =
        readResults s.frameLength (m.tables.getD · default) results := by
      rw [alike.frameLength]
      exact readResults_congr _ hresults agree.tables.same
    have hmemo' := @readResults_memo ρ s.frameLength results hresults (m.tables.getD · default)
    dsimp only
    rw [hread]
    cases hresult : readResults s.frameLength (m.tables.getD · default) results with
    | ok o =>
      refine ⟨rfl, ?_, fun _ => alike.withMachine agree⟩
      rintro _ ⟨⟩
      exact hmemo' hresult
    | error e =>
      refine ⟨rfl, ?_, fun hok => ?_⟩
      · rintro _ ⟨⟩
      · rcases hok with hexact | ⟨o, ⟨⟩⟩
        exact alike.recount hexact agree
  | @error fault m h hfault agree =>
    dsimp only
    cases failureOf? fault with
    | none =>
      refine ⟨rfl, ?_, fun _ => alike.withMachine agree⟩
      rintro _ ⟨⟩
    | some failure =>
      refine ⟨rfl, ?_, fun hok => ?_⟩
      · rintro _ ⟨⟩
      · rcases hok with hexact | ⟨o, ⟨⟩⟩
        exact alike.recount hexact agree
  | lateOk _ _ late => exact absurd late (alike.punctual _)
  | lateError _ _ late => exact absurd late (alike.punctual _)

end PixelHost.Sandbox
