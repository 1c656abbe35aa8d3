import PixelHost.Proofs.Lua.Execution

/-!
# Rounds of a run

A run goes on in rounds. Many of them depend on nothing but the machine: what they lead to is the same
in every run. So a run that begins with such rounds goes on from where they lead to, if it may take as
many, and a run that always has more of them ahead never ends.

## Main definitions

* `Lua.Rounds` — rounds of a run that depend on no other run.

## Main results

* `Lua.Rounds.execute`, `Lua.Rounds.execute_short` — a run that begins with such rounds.
* `Lua.Rounds.execute_endless` — a run that never ends.
-/

namespace PixelHost.Lua

/-- So many rounds lead from one request to another, whatever calls are carried out by. -/
inductive Rounds : Nat → Request → Machine → Request → Machine → Prop
  | refl (request m) : Rounds 0 request m request m
  | head {n request next last m m' m''} (hreturned : ∀ vs, request ≠ .returned vs)
      (hyielded : ∀ vs, request ≠ .yielded vs)
      (round : ∀ c, Run.advance c request m = .ok next m') (rest : Rounds n next m' last m'') :
      Rounds (n + 1) request m last m''

section

variable {k : Nat} {request next last : Request} {m m' m'' : Machine} {pinned holding : Nat}

theorem execute_of_advance (n : Nat) (hreturned : ∀ vs, request ≠ .returned vs)
    (hyielded : ∀ vs, request ≠ .yielded vs)
    (round : ∀ c, Run.advance c request m = .ok next m') :
    execute (n + 1) pinned holding request m = execute n pinned holding next m' := by
  rw [execute_succ n pinned holding hreturned hyielded]
  refine Run.bind_of_ok ?_
  change EStateM.tryCatch _ _ m = _
  delta EStateM.tryCatch
  rw [round]

theorem Rounds.execute (rounds : Rounds k request m last m') (n : Nat) :
    execute (n + k) pinned holding request m = execute n pinned holding last m' := by
  induction rounds with
  | refl => rfl
  | head hreturned hyielded round _ ih =>
    exact (execute_of_advance (n + _) hreturned hyielded round).trans ih

/-- A run that may take no further rounds has no result. -/
theorem Rounds.execute_short (rounds : Rounds k request m last m') {n : Nat} (hn : n ≤ k) :
    ∃ m'', Lua.execute n pinned holding request m = .error .outOfSteps m'' := by
  induction rounds generalizing n with
  | refl => exact Nat.le_zero.mp hn ▸ ⟨_, rfl⟩
  | head hreturned hyielded round _ ih =>
    cases n with
    | zero => exact ⟨_, rfl⟩
    | succ n =>
      rw [execute_of_advance n hreturned hyielded round]
      exact ih (Nat.le_of_succ_le_succ hn)

/-- A run that always has further rounds ahead has no result. By induction on the rounds that it may
take: those that are ahead use some of them up. -/
theorem Rounds.execute_endless (inv : Request → Machine → Prop)
    (progress : ∀ request m, inv request m → ∃ k request' m',
      Rounds (k + 1) request m request' m' ∧ inv request' m') (n pinned holding : Nat)
    (h : inv request m) :
    ∃ m', Lua.execute n pinned holding request m = .error .outOfSteps m' := by
  induction n using Nat.strongRecOn generalizing request m with
  | ind n ih =>
    obtain ⟨k, request', m', rounds, h'⟩ := progress request m h
    by_cases hn : n ≤ k + 1
    · exact rounds.execute_short hn
    · obtain ⟨n, rfl⟩ : ∃ i, n = i + (k + 1) := ⟨n - (k + 1), by omega⟩
      rw [rounds.execute]
      exact ih n (by omega) h'

/-- The memory is not counted where it is not lacking. -/
theorem Run.checkMemory_of_room (room : m.lacks m.charge = false) :
    Run.checkMemory m = .ok () m := by
  change (if m.lacks m.charge then Run.collect else Pure.pure () : Run Unit) m = _
  rw [room]
  rfl

/-- The instruction that is carried out next. -/
theorem Run.step_eq {i : Instr} (h : m.code.getD m.pc .varargPrep = i) :
    Run.step m = Run.perform i { m with pc := m.pc + 1 } := by
  subst h
  rfl

/-- One round that carries out an instruction, where instructions are not counted and memory is not
lacking. -/
theorem Rounds.instruction (hcount : m.checkInterval = 0) (hstep : Run.step m = .ok next m')
    (hroom : m'.lacks m'.charge = false) (rest : Rounds k next m' last m'') :
    Rounds (k + 1) .go m last m'' := by
  refine .head (by simp) (by simp) (fun c => ?_) rest
  have hcounted : Run.countInstruction m = .ok () m := by
    change (if m.checkInterval != 0 && m.thread == 0 then _ else Pure.pure () : Run Unit) m = _
    rw [hcount]
    rfl
  exact (Run.bind_of_ok hcounted).trans <| (Run.bind_of_ok hstep).trans <|
    Run.bind_of_ok (Run.checkMemory_of_room hroom)

end

end PixelHost.Lua
