import PixelHost.Proofs.Lua.Parts
import PixelHost.Proofs.Sandbox.Alike
import PixelHost.Proofs.Sandbox.Preparation

/-!
# What is kept from scripts

All but four tables of a fresh machine, and all but a few library functions, make up a part of the heap
that leads to nothing outside of it once a sandbox is prepared. What the removed names had, and the
functions of the libraries that reach outside, are not in this part.

## Main definitions

* `Sandbox.isInward` — a place or a library function is in this part.
* `Sandbox.inward` — this part as a realm.
* `Sandbox.Outward` — what scripts are not to get hold of.

## Main results

* `Sandbox.Outward.not_isInward` — what scripts are not to get hold of is outside.
* `Sandbox.prepare_alike` — a prepared sandbox starts in the realm.
-/

namespace PixelHost.Sandbox

open Lua

/-! ### The part of the heap -/

/-- A place or a library function that scripts may get hold of: neither the tables of the loaded
libraries, `os`, `io` and `package`, nor a function that reaches outside, loads a text or collects
memory. -/
def isInward : Target → Bool
  | .table r => !([1, 8, 9, 10] : List TableRef).contains r
  | .native (.system _) => false
  | .native (.base f) => !([.load, .loadfile, .dofile, .collectgarbage] : List BaseFn).contains f
  | _ => true

theorem isInward_of_arises {f : Native} (h : f.Arises) : isInward (.native f) = true := by
  cases f with
  | base f => cases f <;> first | rfl | exact h.elim
  | system f => exact h.elim
  | _ => rfl

/-- This part of the heap as a realm. -/
def inward (start : Heap) : Realm :=
  .part (isInward · = true) rfl (fun _ => isInward_of_arises) (by decide) (0, 2) True start []

theorem inward_has {start : Heap} {t : Target} : (inward start).has t ↔ isInward t = true := by
  cases t <;> exact Iff.rfl

/-- A value leads to this part only. -/
def leadsInward (v : Value) : Bool := v.targets.all isInward

theorem inward_value {start : Heap} {v : Value} : (inward start).value v ↔ leadsInward v = true := by
  simp only [Realm.value_iff, inward_has, leadsInward, List.all_eq_true]

/-! ### What scripts are not to get hold of -/

/-- What scripts are not to get hold of: what the removed names have in a fresh machine, and the
functions in the tables of `os`, `io` and `package`. -/
def Outward (clock : Nat) (t : Target) : Prop :=
  let m := Machine.fresh clock
  let global (name : String) : Value := (m.tables.getD m.globals default).get (.ofString name)
  (∃ name ∈ removedNames, t ∈ (global name).targets) ∨
    ∃ name ∈ ["os", "io", "package"], ∃ r, global name = .table r ∧
      ∃ e ∈ (m.tables.getD r default).entries, e.2.isFunction ∧ t ∈ e.2.targets

/-- What the names had leads out of the part of the heap that scripts may get hold of. -/
theorem removed_outward : removedNames.all (fun name =>
    (Table.assigned (libraryContents.getD 0 []) name.toUTF8).targets.all (!isInward ·)) = true := by
  rfl

theorem library_tables : ∀ name ∈ ["os", "io", "package"], ∃ r ∈ ([8, 9, 10] : List TableRef),
    Table.assigned (libraryContents.getD 0 []) name.toUTF8 = .table r := by
  simp only [List.forall_mem_cons, List.not_mem_nil, false_imp_iff, implies_true, and_true]
  exact ⟨⟨8, by decide, rfl⟩, ⟨9, by decide, rfl⟩, ⟨10, by decide, rfl⟩⟩

theorem functions_outward : ([8, 9, 10] : List TableRef).all (fun r =>
    (libraryContents.getD r []).all fun f => !f.2.isFunction || f.2.targets.all (!isInward ·)) =
      true := by
  rfl

/-- The global names of a fresh machine. -/
theorem fresh_global (clock : Nat) (name : String) :
    let m := Machine.fresh clock
    (m.tables.getD m.globals default).get (.ofString name) =
      Table.assigned (libraryContents.getD 0 []) name.toUTF8 := by
  obtain ⟨tables, charge, hfresh, stocked⟩ := Machine.fresh_eq clock
  rw [hfresh]
  exact (stocked.has 0).inSlot name.toUTF8

theorem outward_removed (clock : Nat) {name : String} (hname : name ∈ removedNames) {t : Target}
    (ht : t ∈ (Table.assigned (libraryContents.getD 0 []) name.toUTF8).targets) :
    Outward clock t := by
  rw [← fresh_global clock name] at ht
  exact .inl ⟨name, hname, ht⟩

/-- What scripts are not to get hold of lies outside of the part that they may get hold of. -/
theorem Outward.not_isInward {clock : Nat} {t : Target} (h : Outward clock t) :
    isInward t = false := by
  obtain ⟨name, hname, ht⟩ | ⟨name, hname, r, hr, e, he, hfunction, ht⟩ := h
  · have hall := List.all_eq_true.mp removed_outward name hname
    have hout := List.all_eq_true.mp hall t (fresh_global clock name ▸ ht)
    simpa using hout
  · obtain ⟨r', hr', htable⟩ := library_tables name hname
    obtain rfl : r = r' := Value.table.inj (hr.symm.trans ((fresh_global clock name).trans htable))
    obtain ⟨tables, charge, hfresh, stocked⟩ := Machine.fresh_eq clock
    rw [hfresh] at he
    obtain ⟨s, rfl⟩ := (stocked.has r).named.entries e he
    rw [(stocked.has r).inSlot] at hfunction ht
    rcases Table.assigned_cases (libraryContents.getD r []) s with hnil | ⟨f, hf, -, heq⟩
    · rw [hnil] at hfunction
      cases hfunction
    · have hall := List.all_eq_true.mp (List.all_eq_true.mp functions_outward r hr') f hf
      rw [← heq, hfunction, Bool.not_true, Bool.false_or] at hall
      have hout := List.all_eq_true.mp hall t ht
      simpa using hout

/-! ### A prepared sandbox -/

/-- What is given to the names of a table and not removed again. -/
def keptFields (config : SandboxConfig) : TableRef → List (String × Value)
  | 0 => (libraryContents.getD 0 [] ++ effectFields config).filter (!removedNames.contains ·.1)
  | r => (preparedContents config).getD r []

/-- Before any script runs, a name of a table has nothing, or what it was given. -/
theorem prepared_cases (config : SandboxConfig) (r : TableRef) (s : Bytes) :
    Table.assigned ((preparedContents config).getD r []) s = .nil ∨
      ∃ f ∈ keptFields config r,
        Table.assigned ((preparedContents config).getD r []) s = f.2 := by
  cases r with
  | zero =>
    have hcontents : (preparedContents config).getD 0 [] = libraryContents.getD 0 [] ++
      effectFields config ++ removedNames.map fun name => (name, .nil) := rfl
    rw [hcontents]
    rcases Table.assigned_removed (libraryContents.getD 0 [] ++ effectFields config) removedNames s
      with hnil | ⟨hothers, hkept⟩
    · exact .inl hnil
    · rw [hkept]
      rcases Table.assigned_cases (libraryContents.getD 0 [] ++ effectFields config) s
        with hnil | ⟨f, hf, hname, heq⟩
      · exact .inl hnil
      · refine .inr ⟨f, List.mem_filter.mpr ⟨hf, ?_⟩, heq⟩
        rw [Bool.not_eq_true', Bool.eq_false_iff, Ne, List.contains_iff_mem]
        exact fun h => hothers f.1 h hname
  | succ r =>
    rcases Table.assigned_cases ((preparedContents config).getD (r + 1) []) s
      with hnil | ⟨f, hf, -, heq⟩
    · exact .inl hnil
    · exact .inr ⟨f, hf, heq⟩

/-- There are no more than thirteen tables. -/
theorem lt_of_mem_keptFields {config : SandboxConfig} {r : TableRef} {f : String × Value}
    (hf : f ∈ keptFields config r) : r < 13 := by
  cases r with
  | zero => decide
  | succ r =>
    refine Classical.byContradiction fun hge => ?_
    change f ∈ (preparedContents config).getD (r + 1) [] at hf
    rw [List.getD_eq_getElem?_getD, List.getElem?_eq_none (Nat.not_lt.mp hge)] at hf
    cases hf

theorem keptFields_inward (config : SandboxConfig) :
    (List.range 13).all (fun r => !isInward (.table r) ||
      (keptFields config r).all (leadsInward ·.2)) = true := by
  rfl

/-- Before any script runs, the names of each table in the realm have values of the realm. -/
theorem prepared_inward (config : SandboxConfig) {r : TableRef} (hr : isInward (.table r) = true)
    (s : Bytes) : leadsInward (Table.assigned ((preparedContents config).getD r []) s) = true := by
  rcases prepared_cases config r s with hnil | ⟨f, hf, heq⟩
  · rw [hnil]
    rfl
  · have hin := List.all_eq_true.mp (keptFields_inward config) r
      (List.mem_range.mpr (lt_of_mem_keptFields hf))
    rw [hr, Bool.not_true, Bool.false_or] at hin
    rw [heq]
    exact List.all_eq_true.mp hin f hf

/-- The machine that scripts find lies in the realm. -/
theorem sealedMachine_agree {config : SandboxConfig} {tables : Array Table}
    (stocked : Stocked (preparedContents config) tables) (clock charge : Nat) :
    let m := sealedMachine clock tables charge
    (inward m.heap).Agree m m.heap := by
  intro m
  have hnames : (inward m.heap).core m.rested := .of_rested rfl rfl rfl (by
    change ¬isInward (.native (.system .require)) = true
    decide) (.inl trivial)
  refine .of_closed (fun t ht => ?_) (fun t ht => ?_) (fun t _ => Heap.sameAt_refl _ t)
    ⟨rfl, rfl, rfl, rfl⟩ ⟨rfl, rfl, rfl, rfl⟩ hnames rfl (fun _ => rfl) fun _ h => nomatch h
  · cases t with
    | table r =>
      have hvalues (s : Bytes) : (inward m.heap).value ((tables.getD r default).inSlot (.str s)) := by
        rw [inward_value, (stocked.has r).inSlot]
        exact prepared_inward config (inward_has.mp ht) s
      refine Realm.contents_iff.mp ((stocked.has r).named.contents hvalues ?_)
      rw [(stocked.has r).metatable]
      exact fun _ h => nomatch h
    | cell r =>
      cases r with
      | zero => exact List.forall_mem_singleton.mpr (inward_has.mpr rfl)
      | succ r => exact fun _ h => nomatch h
    | thread r =>
      cases r with
      | zero => exact fun _ h => nomatch h
      | succ r => exact fun _ h => nomatch h
    | iteration i => exact fun _ h => nomatch h
    | native f => exact fun _ h => nomatch h
  · cases t with
    | table r =>
      have hsize : tables.size = 13 := stocked.size
      have hr : ¬r < 13 := hsize ▸ ht
      refine inward_has.mpr ?_
      simp only [isInward, Bool.not_eq_true', List.contains_eq_mem, decide_eq_false_iff_not,
        List.mem_cons, List.not_mem_nil, or_false]
      rintro (rfl | rfl | rfl | rfl) <;> exact hr (by decide)
    | native f => exact absurd trivial ht
    | _ => rfl

/-- A sandbox is like itself if its machine lies in the realm. -/
theorem alike_self {ρ : Realm} {s : Sandbox} (hmetering : ρ.metering = .same)
    (agree : ρ.Agree s.machine s.machine.heap) : Alike ρ s s where
  frameLength := rfl
  instructionLimit := rfl
  allowance := rfl
  metering := hmetering
  agree _ _ hi hj := agree_keeping agree hi hj

/-- Neither a bound on the memory nor what was printed makes a difference in an exact realm. -/
theorem agree_bounded {ρ : Realm} (hexact : ρ.exact) {m : Machine} (agree : ρ.Agree m m.heap)
    (limit : Option Nat) (output : Bytes) :
    let m' : Machine := { m with limit, output }
    ρ.Agree m' m'.heap :=
  { agree with
    core := { agree.core with bounded := .inl hexact }
    same := fun _ => rfl }

/-- A prepared sandbox starts in each exact realm in which the machine lies that scripts find. -/
theorem prepare_alike_of_agree {config : SandboxConfig} {s : Sandbox}
    (plain : config.bootstrap = none) (prepared : (prepare config).1 = .ok s) :
    ∃ tables charge, Stocked (preparedContents config) tables ∧
      let m := sealedMachine config.clock tables charge
      ∀ ρ : Realm, ρ.exact → ρ.metering = .same → ρ.Agree m m.heap → Alike ρ s s := by
  by_cases hallowance : 10 ≤ config.allowance
  · obtain ⟨tables, charge, stocked, hprepare⟩ := prepare_eq plain hallowance
    refine ⟨tables, charge, stocked, fun ρ hexact hmetering agree => alike_self hmetering ?_⟩
    have hrecounted := Run.agree_recounted agree
    generalize (sealedMachine config.clock tables charge).recounted = m at hrecounted hprepare
    rw [← Ending.ok.inj (hprepare.symm.trans prepared)]
    exact agree_bounded hexact hrecounted (some _) .empty
  · exact absurd prepared (prepare_short plain (Nat.not_le.mp hallowance) s)

/-- A prepared sandbox starts in the realm. -/
theorem prepare_alike {config : SandboxConfig} {s : Sandbox} (plain : config.bootstrap = none)
    (prepared : (prepare config).1 = .ok s) :
    ∃ start : Heap, 0 < start.tables.size ∧ Alike (inward start) s s := by
  obtain ⟨tables, charge, stocked, halike⟩ := prepare_alike_of_agree plain prepared
  have hstart : 0 < tables.size := stocked.size ▸ Nat.zero_lt_succ 12
  exact ⟨(sealedMachine config.clock tables charge).heap, hstart,
    halike _ trivial rfl (sealedMachine_agree stocked config.clock charge)⟩

end PixelHost.Sandbox
