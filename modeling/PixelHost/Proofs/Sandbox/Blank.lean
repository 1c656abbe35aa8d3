import Mathlib
import PixelHost.Proofs.Lua.Ends
import PixelHost.Proofs.Lua.Rounds
import PixelHost.Proofs.Sandbox.Budget
import PixelHost.Proofs.Sandbox.Results

/-!
# The empty program

An empty source text is a program, which returns nothing. So it never succeeds, whatever has happened
to a sandbox. Its run takes four rounds, in each of which it may be stopped for other reasons.

## Main definitions

* `Sandbox.blank` — what the empty text is compiled to.
* `Sandbox.InBlank` — a machine that runs it.

## Main results

* `Sandbox.compile_blank` — the empty text is compiled.
* `Sandbox.invoke_blank` — the empty program does not succeed.
-/

namespace PixelHost.Sandbox

open Lua

/-- What the empty text is compiled to. -/
def blank : Prototype where
  code := #[.varargPrep, .ret 0 (some 0)]
  lines := #[1, 1]
  upvalues := #[⟨"_ENV".toUTF8, true, 0, .regular⟩]
  isVararg := true
  chunk := "[string \"upload\"]".toUTF8
  bytes := 218

set_option maxRecDepth 40000 in
theorem compile_empty : Chunk.compile "".toUTF8 "upload".toUTF8 = .ok blank := by
  cbv

/-! ### Its rounds -/

/-- The machine runs the empty program, and is about to carry out an instruction. -/
structure InBlank (pc : Nat) (m : Machine) : Prop where
  frames : ∃ f extra, m.frames = [⟨.program f 1 extra, .done, 0, 3, 1, false⟩]
  code : m.code = blank.code
  pc : m.pc = pc
  toClose : m.toClose = []

/-- The machines carry out the same code. -/
structure SameCode (m m' : Machine) : Prop where
  frames : m'.frames = m.frames
  code : m'.code = m.code
  pc : m'.pc = m.pc
  toClose : m'.toClose = m.toClose

theorem SameCode.refl (m : Machine) : SameCode m m := ⟨rfl, rfl, rfl, rfl⟩

theorem countInstruction_ends (m : Machine) : Run.Ends (fun _ m' => SameCode m m')
    (fun _ m' => m'.frames = m.frames) Run.countInstruction m := by
  rw [Run.Ends, Run.countInstruction_eq]
  split
  · next h =>
    split at h
    · split at h
      · cases h
      · cases h
        exact ⟨rfl, rfl, rfl, rfl⟩
    · cases h
      exact .refl m
  · next h =>
    split at h
    · split at h
      · cases h
        rfl
      · cases h
    · cases h

theorem sameCode_recounted (m : Machine) : SameCode m m.recounted := by
  unfold Machine.recounted
  extract_lets
  split <;> exact ⟨rfl, rfl, rfl, rfl⟩

theorem checkMemory_ends (m : Machine) : Run.Ends (fun _ m' => SameCode m m')
    (fun _ m' => m'.frames = m.frames) Run.checkMemory m := by
  have hcollect : Run.Ends (fun _ m' => SameCode m m') (fun _ m' => m'.frames = m.frames)
      Run.collect m := by
    refine .bind (P := fun _ m' => m' = m.recounted) rfl fun _ m' hm' => ?_
    refine .bind (P := fun _ m' => m' = m.recounted) hm' fun s m' hm' => ?_
    subst hm'
    split
    · exact (sameCode_recounted m).frames
    · exact sameCode_recounted m
  refine .bind (P := fun _ m' => m' = m) rfl fun s m' hm' => ?_
  subst hm'
  split
  · exact hcollect
  · exact SameCode.refl _

theorem SameCode.inBlank {m m' : Machine} {pc : Nat} (same : SameCode m m') (h : InBlank pc m) :
    InBlank pc m' where
  frames := same.frames ▸ h.frames
  code := same.code.trans h.code
  pc := same.pc.trans h.pc
  toClose := same.toClose.trans h.toClose

/-- Nothing in the empty program catches a fault. -/
theorem InBlank.uncaught {m : Machine} {pc : Nat} (h : InBlank pc m) :
    Run.guard? m.frames = none := by
  obtain ⟨f, extra, hframes⟩ := h.frames
  rw [hframes]
  rfl

/-- An instruction that does not fail, with the count before it and the memory after it. -/
theorem InBlank.advance_ends {m : Machine} {pc : Nat} {next : Request} (h : InBlank pc m)
    (step : ∀ m, InBlank pc m →
      Run.Ends (fun r m' => r = next ∧ InBlank (pc + 1) m') (fun _ _ => False) Run.step m)
    (c : Caller) :
    Run.Ends (fun r m' => r = next ∧ InBlank (pc + 1) m') (fun _ m' => Run.guard? m'.frames = none)
      (Run.advance c .go) m := by
  refine .bind ((countInstruction_ends m).mono (fun _ _ same => same.inBlank h)
    fun _ _ hframes => hframes ▸ h.uncaught) fun _ m hm => ?_
  refine .bind ((step m hm).mono (fun _ _ h => h) fun _ _ h => h.elim) ?_
  rintro r m ⟨rfl, hm⟩
  refine .bind ((checkMemory_ends m).mono (fun _ _ same => same.inBlank hm)
    fun _ _ hframes => hframes ▸ hm.uncaught) fun _ m' hm' => ?_
  exact ⟨rfl, hm'⟩

/-- The first instruction is for the arguments, of which none are used. -/
theorem InBlank.step_zero (m : Machine) (h : InBlank 0 m) :
    Run.Ends (fun r m' => r = .go ∧ InBlank 1 m') (fun _ _ => False) Run.step m := by
  have hinstr : m.code.getD m.pc .varargPrep = .varargPrep := by
    rw [h.code, h.pc]
    rfl
  exact .of_ok (Run.step_eq hinstr) ⟨rfl, h.frames, h.code, congrArg (· + 1) h.pc, h.toClose⟩

theorem closeCells_ends (level : Nat) (m : Machine) :
    Run.Ends (fun _ m' => SameCode m m') (fun _ _ => False) (Run.closeCells level) m := by
  refine .bind (P := fun _ m' => m' = m) rfl fun s m' hm' => ?_
  subst hm'
  split
  · exact SameCode.refl _
  · dsimp only
    split
    · exact SameCode.refl _
    · exact ⟨rfl, rfl, rfl, rfl⟩

theorem slots_zero (first : Nat) (m : Machine) : Run.slots first 0 m = .ok #[] m := by
  have hempty : m.stack.extract first first = #[] := by simp
  change EStateM.Result.ok (m.stack.extract first first) m = _
  rw [hempty]

/-- The second one returns nothing, with no variable to be closed before. -/
theorem InBlank.returnStep_ends {m : Machine} {pc : Nat} (h : InBlank pc m) (first : Nat) :
    Run.Ends (fun r m' => r = .finish #[] ∧ InBlank pc m') (fun _ _ => False)
      (Run.returnStep first 0) m := by
  obtain ⟨f, extra, hframes⟩ := h.frames
  refine .bind (P := fun s m' => s = m ∧ m' = m) ⟨rfl, rfl⟩ ?_
  rintro _ _ ⟨rfl, rfl⟩
  rw [h.toClose, hframes]
  simp only [Bool.false_eq_true, if_false]
  have hreturn (m : Machine) (h : InBlank pc m) :
      Run.Ends (fun r m' => r = .finish #[] ∧ InBlank pc m') (fun _ _ => False)
        (do return Request.finish (← Run.slots first 0)) m := by
    have hslots : (do return Request.finish (← Run.slots first 0) : Run Request) m =
        .ok (.finish #[]) m := Run.bind_of_ok (slots_zero first m)
    exact .of_ok hslots ⟨rfl, h⟩
  split
  · exact hreturn _ h
  · exact (closeCells_ends _ _).bind fun _ m' same => hreturn m' (same.inBlank h)

theorem InBlank.step_one (m : Machine) (h : InBlank 1 m) :
    Run.Ends (fun r m' => r = .finish #[] ∧ InBlank 2 m') (fun _ _ => False) Run.step m := by
  have hinstr : m.code.getD m.pc .varargPrep = .ret 0 (some 0) := by
    rw [h.code, h.pc]
    rfl
  have hnext : InBlank 2 { m with pc := m.pc + 1 } :=
    ⟨h.frames, h.code, congrArg (· + 1) h.pc, h.toClose⟩
  rw [Run.Ends, Run.step_eq hinstr]
  exact hnext.returnStep_ends _

theorem InBlank.finish_ends {m : Machine} (h : InBlank 2 m) (c : Caller) :
    Run.Ends (fun r _ => r = .returned #[]) (fun _ m' => Run.guard? m'.frames = none)
      (Run.advance c (.finish #[])) m := by
  obtain ⟨f, extra, hframes⟩ := h.frames
  change Run.Ends _ _ (Run.finish #[]) m
  refine .bind (P := fun s m' => s = m) rfl fun s m' hs => ?_
  rw [hs, hframes]
  exact rfl

/-- A run of the empty program returns nothing. -/
theorem InBlank.execute_ends {m : Machine} (h : InBlank 0 m) (n pinned holding : Nat) :
    Run.Ends (fun stop _ => stop = .returned #[]) (fun _ _ => True)
      (execute n pinned holding .go) m := by
  -- four rounds: the two instructions, the end of the activation, and the results
  refine Lua.execute_ends (by simp) (by simp) (h.advance_ends step_zero) ?_ n pinned holding
  rintro n pinned holding _ m ⟨rfl, h⟩
  refine Lua.execute_ends (by simp) (by simp) (h.advance_ends step_one) ?_ n pinned holding
  rintro n pinned holding _ m ⟨rfl, h⟩
  refine Lua.execute_ends (by simp) (by simp) h.finish_ends ?_ n pinned holding
  rintro n pinned holding _ m rfl
  exact execute_returned_ends _ n pinned holding

/-! ### Compiling and invoking it -/

/-- What the empty text is loaded as. -/
theorem loadAtRest_empty (m : Machine) :
    Run.Ends
      (fun loaded _ => ∀ v, loaded = .ok v → ∃ id upvalues, v = .closure ⟨id, blank, upvalues⟩)
      (fun _ _ => True) (loadAtRest "") m := by
  unfold loadAtRest
  refine .bind .any fun env m _ => ?_
  rw [compile_empty]
  refine .bind (P := fun v _ => ∃ id upvalues, v = .closure ⟨id, blank, upvalues⟩) ?_
    fun f m hf => ?_
  · refine .bind .any fun _ _ _ => .bind .any fun cell _ _ => .bind .any fun id _ _ => ?_
    exact ⟨id, #[cell], rfl⟩
  · refine .bind .any fun _ _ _ => .bind .any fun _ _ _ => ?_
    rintro v ⟨⟩
    exact hf

theorem compile_blank {s : Sandbox} {inUse : InUse Value Value} {f : Value}
    (compiled : (s.compile inUse "").1 = .ok f) :
    ∃ id upvalues, f = .closure ⟨id, blank, upvalues⟩ := by
  have hload := loadAtRest_empty (keeping inUse s.machine).rested
  rw [Run.Ends, ← load_eq] at hload
  unfold compile runOn at compiled
  cases h : load inUse "" s.machine with
  | error fault m =>
    rw [h] at compiled
    cases hfailure : failureOf? fault <;> simp only [hfailure, Ending.failing] at compiled <;>
      cases compiled
  | ok loaded m =>
    rw [h] at compiled hload
    cases loaded with
    | error failure => cases compiled
    | ok v =>
      cases compiled
      exact hload _ rfl

section

variable (s : Sandbox) (inUse : InUse Value Value) (id : Nat) (upvalues : Array CellRef)
variable (counter : UInt32) (memo : Option Value)

/-- A call of the empty program returns nothing, if it returns. -/
theorem call_blank (m : Machine) : Run.Ends (fun results _ => results = #[]) (fun _ _ => True)
    (s.call inUse (.closure ⟨id, blank, upvalues⟩) counter memo) m := by
  unfold call
  refine .bind .any fun _ _ _ => .bind .any fun _ m _ => ?_
  obtain ⟨m', hbegins, hblank⟩ : ∃ m', Run.callValue (.closure ⟨id, blank, upvalues⟩)
      #[.ofNat counter.toNat, memo.getD .nil] .done m.rested = .ok .go m' ∧ InBlank 0 m' :=
    ⟨_, rfl, ⟨_, _, rfl⟩, rfl, rfl, rfl⟩
  refine Run.callFromOutside_ends hbegins fun pinned holding => ?_
  refine (hblank.execute_ends _ pinned holding).mono ?_ fun _ _ h => h
  rintro _ _ rfl vs (hvs | hvs)
  · exact (Stop.returned.inj hvs).symm
  · cases hvs

/-- The empty program does not succeed, whatever has happened to the sandbox. -/
theorem invoke_blank (o : Outcome Value) :
    (s.invoke inUse (.closure ⟨id, blank, upvalues⟩) counter memo).1 ≠ .ok o := by
  have hcall := s.call_blank inUse id upvalues counter memo s.machine
  cases h : s.call inUse (.closure ⟨id, blank, upvalues⟩) counter memo s.machine with
  | error fault m =>
    rw [invoke_of_error h]
    cases failureOf? fault <;> exact nofun
  | ok results m =>
    obtain rfl : results = #[] := hcall.result h
    have hread : readResults s.frameLength (m.tables.getD · default) #[] = .error _ :=
      readResults_other nofun
    rw [invoke_of_ok h, hread]
    exact nofun

end

end PixelHost.Sandbox
