import PixelHost.Proofs.Sandbox.Inward
import PixelHost.Proofs.Sandbox.Isolation

/-!
# Programs of a prepared sandbox

Two library functions would show a program what others did: one tells how much memory is in use, the
other gives the libraries themselves. Once a sandbox is prepared, no place of its heap leads to either
of them, and nothing that programs do changes this. So a program that was compiled by a prepared
sandbox, or is compiled by it at any later time, is not disturbed by the programs that run before it or
in between, as long as these leave alone what all programs have in common.

## Main results

* `Sandbox.sealed_of_history` — no program ever gets hold of the two functions.
* `Sandbox.view_undisturbed` — a program of a prepared sandbox gives what it gave before the others ran.
-/

namespace PixelHost.Sandbox

open Lua

/-! ### Sealed for good -/

/-- A place, or a library function that programs may get hold of. -/
def isPermitted : Target → Bool
  | .native (.base .collectgarbage) | .native (.system .require) => false
  | _ => true

theorem permitted_of_isPermitted {f : Native} (h : isPermitted (.native f) = true) : Permitted f := by
  constructor <;> rintro rfl <;> cases h

theorem keptFields_permitted (config : SandboxConfig) :
    (List.range 13).all (fun r => (keptFields config r).all (·.2.targets.all isPermitted)) = true := by
  rfl

/-- Before any script runs, the names of the tables lead to permitted functions. -/
theorem prepared_permitted (config : SandboxConfig) (r : TableRef) (s : Bytes) {f : Native}
    (hf : .native f ∈ (Table.assigned ((preparedContents config).getD r []) s).targets) :
    Permitted f := by
  rcases prepared_cases config r s with hnil | ⟨field, hfield, heq⟩
  · rw [hnil] at hf
    exact absurd hf List.not_mem_nil
  · have hall := List.all_eq_true.mp (keptFields_permitted config) r
      (List.mem_range.mpr (lt_of_mem_keptFields hfield))
    rw [heq] at hf
    exact permitted_of_isPermitted
      (List.all_eq_true.mp (List.all_eq_true.mp hall field hfield) _ hf)

/-- The machine that scripts find is sealed. -/
theorem sealed_sealedMachine {config : SandboxConfig} {tables : Array Table}
    (stocked : Stocked (preparedContents config) tables) {s : Sandbox} {clock charge : Nat}
    (hmachine : s.machine = sealedMachine clock tables charge) : Sealed s := by
  intro t f hf
  have hheap : s.heap = (sealedMachine clock tables charge).heap := by
    rw [heap, hmachine]
    rfl
  rw [hheap] at hf
  cases t with
  | table r =>
    have hvalues (name : Bytes) :
        s.everything.value ((tables.getD r default).inSlot (.str name)) := by
      refine Realm.value_iff.mpr fun t ht => realm_has.mpr (within_nowhere ?_)
      rintro g rfl
      rw [(stocked.has r).inSlot] at ht
      exact prepared_permitted config r name ht
    have hmetatable : ∀ mt ∈ (tables.getD r default).metatable, s.everything.table mt := by
      rw [(stocked.has r).metatable]
      exact fun mt h => absurd h (Option.not_mem_none mt)
    have hcontents := (stocked.has r).named.contents hvalues hmetatable
    exact realm_has.mp (Realm.contents_iff.mp hcontents _ hf)
  | cell r =>
    cases r with
    | zero => cases List.mem_singleton.mp hf
    | succ r => exact absurd hf List.not_mem_nil
  | thread r =>
    cases r with
    | zero => exact absurd hf List.not_mem_nil
    | succ r => exact absurd hf List.not_mem_nil
  | iteration i => exact absurd hf List.not_mem_nil
  | native g => exact absurd hf List.not_mem_nil

/-- A prepared sandbox is sealed. -/
theorem sealed_of_prepare {config : SandboxConfig} {s : Sandbox} (plain : config.bootstrap = none)
    (prepared : (prepare config).1 = .ok s) : Sealed s := by
  obtain ⟨tables, charge, stocked, halike⟩ := prepare_alike_of_agree plain prepared
  let s₀ : Sandbox := { s with machine := sealedMachine config.clock tables charge }
  have hsealed : Sealed s₀ := sealed_sealedMachine stocked rfl
  have hfree : Keeps s₀.everything ⟨[], []⟩ := List.forall_mem_nil _
  obtain ⟨h, agree, -⟩ := hsealed.alike.agree _ _ hfree fun _ => rfl
  exact .of_alike (halike s₀.everything trivial rfl agree.self)

section

variable {config : SandboxConfig} {start s s' : Sandbox} {vs others : List Value}

/-- Whatever programs do, a sealed sandbox stays sealed, and so are the values that it hands out. -/
theorem Sealed.history (hsealed : Sealed start) (history : History [] start s vs) :
    Sealed s ∧ ∀ v ∈ vs, ∀ f, .native f ∈ v.targets → Permitted f := by
  obtain ⟨alike, hvs⟩ := history.alike (ρ := start.everything) trivial rfl hsealed.alike
  exact ⟨.of_alike alike, fun v hv f hf => realm_has.mp (Realm.value_iff.mp (hvs v hv) _ hf)⟩

/-- No program of a prepared sandbox ever gets hold of a function that is not permitted. -/
theorem sealed_of_history (plain : config.bootstrap = none)
    (prepared : (prepare config).1 = .ok start) (history : History [] start s vs) :
    Sealed s ∧ ∀ v ∈ vs, ∀ f, .native f ∈ v.targets → Permitted f :=
  (sealed_of_prepare plain prepared).history history

/-! ### Undisturbed programs -/

/-- Whatever has happened to a prepared sandbox, other programs that leave alone what all programs have
in common make no difference to what a program gives: one that is uploaded afterwards, or one that was
handed out before with the value that is handed on to it. -/
theorem view_undisturbed (plain : config.bootstrap = none)
    (prepared : (prepare config).1 = .ok start) (history : History [] start s vs) {use : Use}
    (held : ∀ v ∈ use.values, v ∈ vs) (meanwhile : History use.values s s' others)
    (untouched : Untouched use.values s s') {i j : InUse Value Value} (steady : Steady use i s)
    (roomy : Roomy use j s') : view (use.run j s') = view (use.run i s) := by
  obtain ⟨hsealed, hvs⟩ := sealed_of_history plain prepared history
  exact Use.view_isolated hsealed (fun v hv => hvs v (held v hv)) meanwhile untouched steady roomy

end

end PixelHost.Sandbox
