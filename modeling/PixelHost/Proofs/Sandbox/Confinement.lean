import PixelHost.Proofs.Lua.Moments
import PixelHost.Proofs.Sandbox.Inward
import PixelHost.Proofs.Sandbox.Isolation

/-!
# Scripts are confined

What the removed names had, and the functions in the tables of `os`, `io` and `package`, stay out of
reach of scripts for good: whatever programs are compiled and invoked, and whatever they do, neither the
shared tables nor what the programs were given or handed on lead there, at no moment of a call. So no
call of any of these functions is ever carried out.

The reason is that the part of the heap that a prepared sandbox hands out is closed, and that what runs
in an exact realm stays in it.

## Main definitions

* `Sandbox.callBy` — calls a program, with the calls in it carried out as told.
* `Sandbox.Meets` — the call of a program comes to a moment.
* `Sandbox.Confined` — nothing leads to what scripts are not to get hold of.

## Main results

* `Sandbox.meets_first` — the call of the program itself comes up first.
* `Sandbox.Alike.meets` — the moments of a call lie in the realm of the program.
* `Sandbox.confined_of_history` — scripts never get hold of what is kept from them.
-/

namespace PixelHost.Sandbox

open Lua

/-! ### The moments of a call -/

/-- Calls a program, with the calls in it carried out as told. -/
def callBy (s : Sandbox) (c : Caller) (inUse : InUse Value Value) (chunk : Value) (counter : UInt32)
    (memo : Option Value) : Run (Array Value) := do
  keep inUse
  armBudget s.instructionLimit
  Run.outside c (Run.calling chunk #[.ofNat counter.toNat, memo.getD .nil])

/-- The call of a program comes to a moment. -/
def Meets (s : Sandbox) (inUse : InUse Value Value) (chunk : Value) (counter : UInt32)
    (memo : Option Value) (request : Request) (m : Machine) : Prop :=
  ∃ first m₁, Asks (fun c => s.callBy c inUse chunk counter memo) (.within s.allowance) s.machine
      first m₁ ∧ Lua.Meets request m s.allowance m₁.pinned m₁.holding first m₁

/-- With the calls in it carried out within the allowance, it is the call that an invocation makes. -/
theorem callBy_within (s : Sandbox) (inUse : InUse Value Value) (chunk : Value) (counter : UInt32)
    (memo : Option Value) : s.callBy (.within s.allowance) inUse chunk counter memo =
      s.call inUse chunk counter memo := rfl

/-- The machine on which a program is called: at rest, with the budget of a call. -/
def started (s : Sandbox) (inUse : InUse Value Value) : Machine :=
  (keeping inUse s.machine).rested.withMeter (.full checkInterval s.instructionLimit)

theorem callBy_eq (s : Sandbox) (c : Caller) (inUse : InUse Value Value) (chunk : Value)
    (counter : UInt32) (memo : Option Value) : s.callBy c inUse chunk counter memo s.machine =
      Run.outside c (Run.calling chunk #[.ofNat counter.toNat, memo.getD .nil])
        (s.started inUse) := by
  let armed : Machine := (keeping inUse s.machine).withMeter (.full checkInterval s.instructionLimit)
  change Run.outside c _ armed = Run.outside c _ armed.rested
  exact (outside_rested c _ armed).symm

section

variable {ρ : Realm} {s : Sandbox} {inUse : InUse Value Value} {chunk : Value} {counter : UInt32}
  {memo : Option Value} {request : Request} {m : Machine}

/-- The call of the program itself comes up first. -/
theorem meets_first (h : Run.callValue chunk #[.ofNat counter.toNat, memo.getD .nil] .done
    (s.started inUse).rested = .ok request m) : s.Meets inUse chunk counter memo request m := by
  have hcalling : Asks (Run.calling chunk #[.ofNat counter.toNat, memo.getD .nil])
      (.within s.allowance) (s.started inUse).rested request m :=
    .after h <| (asks_run _ request m).bind _
  exact ⟨request, m, hcalling.outside.congr fun c => callBy_eq s c inUse chunk counter memo, .now⟩

/-- The moments of a call lie in the realm of the program. -/
theorem Alike.meets (alike : Alike ρ s s) (hexact : ρ.exact) (hstart : 0 < ρ.start.tables.size)
    (hkeeps : Keeps ρ inUse) (hchunk : ρ.value chunk) (hmemo : ∀ v ∈ memo, ρ.value v)
    (meets : s.Meets inUse chunk counter memo request m) :
    ρ.request request ∧ ρ.Agree m m.heap := by
  obtain ⟨first, m₁, asks, rest⟩ := meets
  obtain ⟨h, agree, -⟩ := alike.agree inUse inUse hkeeps fun _ => rfl
  have hstarted : ρ.Agree (s.started inUse) (s.started inUse).heap :=
    ((armBudget_stays alike.metering s.instructionLimit).of_ok agree.self (armBudget_eq _ _)).2
  have hargs : ρ.values #[.ofNat counter.toNat, memo.getD .nil] := by
    refine .two trivial ?_
    cases memo with
    | none => exact Realm.value_nil
    | some v => exact hmemo v rfl
  have hwithin : ρ.caller (.within s.allowance) := fun request hrequest m heap agree =>
    execute_stays s.allowance m.pinned m.holding hrequest m heap agree
  obtain ⟨hfirst, hm₁⟩ := Asks.lies hexact alike.metering hstart
    (fun c hc => Run.outside_stays hc (Run.calling_stays hc hchunk hargs)) hwithin hstarted
    (asks.congr fun c => (callBy_eq s c inUse chunk counter memo).symm)
  exact rest.lies hexact alike.metering hstart hfirst hm₁

end

/-! ### Confinement -/

/-- A function outside of the part of the heap that scripts may get hold of stands for itself. -/
theorem native_mem_targets {f : Native} (h : isInward (.native f) = false) :
    .native f ∈ f.targets := by
  cases f with
  | matchStep i => cases h
  | wrapped r => cases h
  | _ => exact List.mem_singleton_self _

/-- Nothing that scripts are not to get hold of can be reached. -/
def Confined (clock : Nat) (h : Heap) (roots : List Target) : Prop :=
  ∀ t, Outward clock t → ¬h.Reaches roots t

/-- A machine in the realm leads to nothing that scripts are not to get hold of. -/
theorem confined_of_agree {start : Heap} {m : Machine} (agree : (inward start).Agree m m.heap)
    {roots : List Target} (hroots : ∀ t ∈ roots, (inward start).has t) (clock : Nat) :
    Confined clock m.heap roots := by
  intro t hout way
  have hin := inward_has.mp (agree.has_of_reaches hroots way)
  rw [hout.not_isInward] at hin
  cases hin

/-- A sandbox that is like itself lies in the realm, at rest, unless the host is to keep certain
values. -/
theorem Alike.agree_rested {ρ : Realm} {s : Sandbox} (alike : Alike ρ s s) (hfree : ρ.anchors = []) :
    ρ.Agree s.machine.rested s.heap := by
  -- The host goes on to keep what it keeps already.
  have hkept : keeping ⟨s.machine.held.toList, []⟩ s.machine = s.machine := by
    rw [keeping, List.append_nil, Array.toArray_toList]
  have hkeeps : Keeps ρ ⟨s.machine.held.toList, []⟩ := by
    rw [Keeps, hfree]
    exact List.forall_mem_nil _
  obtain ⟨h, agree, -⟩ := alike.agree _ _ hkeeps fun _ => rfl
  rw [hkept] at agree
  exact agree.self

/-- Scripts never get hold of what is kept from them, and never call it: whatever has happened to the
sandbox, neither the shared tables nor what was handed out lead there, and neither does the machine at
any moment of a call. -/
theorem confined_of_history {config : SandboxConfig} {s s' : Sandbox} {vs : List Value}
    (plain : config.bootstrap = none) (prepared : (prepare config).1 = .ok s)
    (history : History [] s s' vs) :
    Confined config.clock s'.heap (s'.shared ++ vs.flatMap Value.targets) ∧
      ∀ inUse chunk counter memo, chunk ∈ vs → (∀ v ∈ memo, v ∈ vs) → ∀ request m,
        s'.Meets inUse chunk counter memo request m →
          Confined config.clock m.heap (m.roots ++ request.targets) ∧
          ∀ f args, request = .native f args → ¬Outward config.clock (.native f) := by
  obtain ⟨start, hstart, alike⟩ := prepare_alike plain prepared
  obtain ⟨alike, hvs⟩ := history.alike (ρ := inward start) trivial rfl alike
  constructor
  · have agree := alike.agree_rested rfl
    refine confined_of_agree agree (List.forall_mem_append.mpr ⟨?_, fun t ht => ?_⟩) _
    · simp only [shared, List.forall_mem_cons, List.not_mem_nil, false_imp_iff, implies_true,
        and_true]
      exact ⟨agree.core.globals, agree.core.stringMetatable⟩
    · obtain ⟨v, hv, ht⟩ := List.mem_flatMap.mp ht
      exact Realm.value_iff.mp (hvs v hv) t ht
  · intro inUse chunk counter memo hchunk hmemo request m meets
    have hkeeps : Keeps (inward start) inUse := List.forall_mem_nil _
    obtain ⟨hrequest, agree⟩ := alike.meets trivial hstart hkeeps (hvs _ hchunk)
      (fun v hv => hvs v (hmemo v hv)) meets
    have hmoment := confined_of_agree agree (List.forall_mem_append.mpr
      ⟨agree.core.roots, Realm.request_iff.mp hrequest⟩) config.clock
    refine ⟨hmoment, ?_⟩
    rintro f args rfl hout
    have hf := native_mem_targets hout.not_isInward
    exact hmoment _ hout (.root (List.mem_append_right _ (List.mem_append_left _ hf)))

/-- After an upload to a sandbox as it is by default, nothing leads to the function that loads texts, nor
to the rest of what is kept from scripts. The same holds while the uploaded program is called. -/
theorem load_confined_after_upload : ∃ s, (prepare {}).1 = .ok s ∧
    let r := s.compile ⟨[], []⟩ "return load"
    Outward 0 (.native (.base .load)) ∧
      Confined 0 r.2.heap (r.2.shared ++ (r.1.toOption.toList ++ []).flatMap Value.targets) ∧
      ∀ f, r.1 = .ok f → ∀ request m, r.2.Meets ⟨[f], []⟩ f 0 none request m →
        Confined 0 m.heap (m.roots ++ request.targets) := by
  have plain : ({} : SandboxConfig).bootstrap = none := rfl
  obtain ⟨s, prepared⟩ := exists_prepare plain (by decide)
  have hload : Outward 0 (.native (.base .load)) :=
    outward_removed 0 (by decide : "load" ∈ removedNames) (List.mem_singleton_self _)
  have history : History [] s (s.compile ⟨[], []⟩ "return load").2
      ((s.compile ⟨[], []⟩ "return load").1.toOption.toList ++ []) :=
    .compile .start (List.forall_mem_nil _) _
  obtain ⟨hheld, hcalled⟩ := confined_of_history plain prepared history
  refine ⟨s, prepared, hload, hheld, fun f hf request m meets => ?_⟩
  have hmem := List.mem_append_left [] (Option.mem_toList.mpr (mem_toOption.mpr hf))
  exact (hcalled _ f 0 none hmem (fun _ h => nomatch h) request m meets).1

end PixelHost.Sandbox
