import PixelHost.Proofs.Lua.Execution
import PixelHost.Sandbox.Basic

/-!
# Programs in a realm

To compile a program and to call it stays in every realm that the shared names lie in. So what a
program may get hold of is what the shared names and its own values lead to, and what is taken while
it runs.

## Main results

* `Sandbox.loadAtRest_stays` — compiling.
* `Sandbox.call_stays` — calling a program.
* `Sandbox.readResults_congr` — what is read from the results.
-/

namespace PixelHost.Sandbox

open Lua

variable {ρ : Realm}

/-! ### Compiling -/

theorem setField_stays {r : TableRef} {v : Value} (hr : ρ.table r) (name : String)
    (hv : ρ.value v) : Stays ρ Plain (Run.setField r name v) :=
  Run.rawSet_stays hr (Realm.value_str _) hv

theorem copyTable_stays {r : TableRef} (hr : ρ.table r) : Stays ρ ρ.table (copyTable r) := by
  refine (Run.newTable_stays Realm.contents.empty).bind fun copy hcopy =>
    (Run.tableAt_stays hr).bind fun t ht => .bind (P := Plain) ?_ fun _ _ => .pure hcopy
  refine .forIn t.entries trivial fun p hp _ _ => ?_
  obtain ⟨hk, hv⟩ := ht.entries p hp
  exact (Run.rawSet_stays hcopy hk hv).andThen (.pure trivial)

theorem newEnvironment_stays : Stays ρ ρ.table newEnvironment := by
  refine .read (fun m hm => ?_) fun _ _ => rfl
  have hglobals := hm.globals
  generalize m.globals = globals at hglobals ⊢
  refine (Run.newTable_stays Realm.contents.empty).bind fun env henv =>
    (setField_stays henv _ (v := .table env) henv).andThen <| .bind (P := Plain) ?_ fun _ _ =>
    (Run.newTable_stays Realm.contents.empty).bind fun mt hmt =>
    (setField_stays hmt _ (v := .table globals) hglobals).andThen <|
    (setField_stays hmt _ (Realm.value_bool _)).andThen <|
    (Run.modifyTable_stays henv fun t ht => ?_).andThen (.pure henv)
  · refine .forIn copiedLibraries trivial fun name _ _ _ =>
      (Run.rawGet_stays hglobals _).bind fun v hv => ?_
    split
    · next r =>
      exact (copyTable_stays hv).bind fun copy hcopy =>
        (setField_stays henv _ (v := .table copy) hcopy).andThen (.pure trivial)
    · exact .pure trivial
  · refine { ht with metatable := ?_ }
    rintro _ ⟨⟩
    exact hmt

/-- A program lies in the realm, once it compiles. -/
def loaded (ρ : Realm) : Except Failure Value → Prop
  | .ok f => ρ.value f
  | .error _ => True

theorem loadAtRest_stays (source : String) : Stays ρ (loaded ρ) (loadAtRest source) := by
  refine newEnvironment_stays.bind fun env henv => ?_
  split
  · exact .pure trivial
  · have henvironment : ρ.value (.table env) := henv
    refine (Run.loadChunk_stays _ henvironment).bind fun f hf =>
      .andThen (P := Plain) ?_ (Run.checkMemory_stays.andThen (.pure hf))
    exact .change (fun _ => rfl) fun m h agree => ⟨{ h with held := h.held.push f }, rfl, { agree with
      core := agree.core.of_eq rfl rfl rfl rfl rfl rfl rfl rfl rfl
      same := fun e => by rw [agree.same e]; rfl
      held := fun v hv => Array.mem_push_of_mem f (agree.held v hv) }⟩

/-! ### Calling -/

theorem armBudget_eq (limit : Nat) (m : Machine) :
    armBudget limit m = .ok () (m.withMeter (.full checkInterval limit)) := rfl

/-- Two machines have the same count once they have the same budget. -/
theorem armBudget_stays (hmetering : ρ.metering = .same) (limit : Nat) :
    Stays ρ Plain (armBudget limit) := by
  intro m h agree
  have harmed : ρ.Agree (m.withMeter (.full checkInterval limit))
      { h with meter := .full checkInterval limit } := { agree with
    core := agree.core.of_eq rfl rfl rfl rfl rfl rfl rfl rfl rfl
    meter := by rw [hmetering]; rfl
    same := fun e => by rw [agree.same e]; rfl }
  have hpunctual : ¬ρ.metering.late m.meter := by
    rw [hmetering]
    exact id
  exact Realm.Same.ok (a := ()) trivial harmed fun late => absurd late hpunctual

/-- Calls a program on a machine at rest. -/
def callAtRest (s : Sandbox) (chunk : Value) (counter : UInt32) (memo : Option Value) :
    Run (Array Value) := do
  armBudget s.instructionLimit
  Run.callFromOutside s.allowance chunk #[.ofNat counter.toNat, memo.getD .nil]

theorem callAtRest_stays (hmetering : ρ.metering = .same) (s : Sandbox) {chunk : Value}
    (hchunk : ρ.value chunk) (counter : UInt32) {memo : Option Value}
    (hmemo : ∀ v ∈ memo, ρ.value v) : Stays ρ ρ.values (callAtRest s chunk counter memo) := by
  refine (armBudget_stays hmetering _).andThen (Run.callFromOutside_stays _ hchunk (.two trivial ?_))
  cases memo with
  | none => exact Realm.value_nil
  | some v => exact hmemo v rfl

/-! ### Machines at rest -/

/-- The machine with the values noted that the host keeps. -/
def keeping (inUse : InUse Value Value) (m : Machine) : Machine :=
  { m with held := (inUse.chunks ++ inUse.memos).toArray }

theorem rested_rested (m : Machine) : m.rested.rested = m.rested := by
  simp only [Machine.rested, Array.setIfInBounds_setIfInBounds]

theorem rest_bind {α : Type} (k : Unit → Run α) (m : Machine) :
    (Run.rest >>= k) m = k () m.rested := rfl

/-- A call puts the machine at rest first. -/
theorem outside_rested {α : Type} (c : Caller) (body : Caller → Run α) (m : Machine) :
    Run.outside c body m.rested = Run.outside c body m := by
  simp only [Run.outside, rest_bind, rested_rested]

theorem load_eq (inUse : InUse Value Value) (source : String) (m : Machine) :
    load inUse source m = loadAtRest source (keeping inUse m).rested := rfl

theorem call_eq (s : Sandbox) (inUse : InUse Value Value) (chunk : Value) (counter : UInt32)
    (memo : Option Value) (m : Machine) :
    s.call inUse chunk counter memo m = s.callAtRest chunk counter memo (keeping inUse m).rested := by
  let armed : Machine := (keeping inUse m).withMeter (.full checkInterval s.instructionLimit)
  change Run.callFromOutside s.allowance chunk _ armed =
    Run.callFromOutside s.allowance chunk _ armed.rested
  exact (outside_rested _ _ armed).symm

/-! ### Results -/

/-- What is read from the results depends on what the first of them holds. -/
theorem readResults_congr (n : Nat) {results : Array Value} (hresults : ρ.values results)
    {tables tables' : TableRef → Table} (same : ∀ r, ρ.table r → tables' r = tables r) :
    readResults n tables' results = readResults n tables results := by
  have hhead : ∀ v ∈ results.toList.head?, ρ.value v := fun v hv =>
    hresults v (Array.mem_toList_iff.mp (List.mem_of_mem_head? hv))
  unfold readResults
  generalize results.toList.head? = head at hhead
  cases head with
  | none => rfl
  | some v =>
    cases v with
    | table r => simp only [same r (hhead _ rfl)]
    | _ => rfl

/-- What is handed on is one of the results. -/
theorem readResults_memo {n : Nat} {results : Array Value} (hresults : ρ.values results)
    {tables : TableRef → Table} {outcome : Outcome Value}
    (h : readResults n tables results = .ok outcome) : ∀ v ∈ outcome.memo, ρ.value v := by
  have hmemo : outcome.memo = readMemo results := by
    unfold readResults at h
    split at h
    · next r _ =>
      cases hframe : readFrame n (tables r) with
      | error e => rw [hframe] at h; cases h
      | ok frame =>
        cases hdelay : readDelay (results.getD 1 .nil) with
        | error e => rw [hframe, hdelay] at h; cases h
        | ok delay =>
          rw [hframe, hdelay] at h
          cases h
          rfl
    · cases h
  have hthird := hresults.getD 2
  rw [hmemo, readMemo]
  generalize results.getD 2 .nil = v at hthird ⊢
  split
  · exact fun _ h => nomatch h
  · rintro _ ⟨⟩
    exact hthird

end PixelHost.Sandbox
