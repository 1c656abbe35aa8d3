import PixelHost.Proofs.Lua.Execution

/-!
# What holds after a computation

A computation on a machine ends with a result or with a fault. Here it is said what holds of either,
and how that is put together from parts. A fault outside of all protected calls ends a run, so what
holds of the results of a run is what holds of the results of its rounds.

## Main definitions

* `Lua.Run.Ends` — what holds of the result of a computation, or of its fault.

## Main results

* `Lua.Run.recover_ends` — a fault that nothing catches.
* `Lua.execute_ends` — a round of a run and the rounds after it.
* `Lua.Run.callFromOutside_ends` — a call on a machine at rest.
-/

namespace PixelHost.Lua

namespace Run

/-- What holds after a computation: `P` of its result, or `E` of its fault. -/
def Ends {α : Type} (P : α → Machine → Prop) (E : Fault → Machine → Prop) (x : Run α)
    (m : Machine) : Prop :=
  match x m with
  | .ok a m' => P a m'
  | .error fault m' => E fault m'

namespace Ends

variable {α β : Type} {P P' : α → Machine → Prop} {Q : β → Machine → Prop}
  {E E' : Fault → Machine → Prop} {x : Run α} {f : α → Run β} {m m' : Machine} {a : α}

theorem any : Ends (fun _ _ => True) (fun _ _ => True) x m := by
  rw [Ends]
  split <;> trivial

theorem of_ok (h : x m = .ok a m') (hP : P a m') : Ends P E x m := by
  rw [Ends, h]
  exact hP

theorem result (h : Ends P E x m) (ok : x m = .ok a m') : P a m' := by
  rw [Ends, ok] at h
  exact h

theorem mono (h : Ends P E x m) (hP : ∀ a m', P a m' → P' a m')
    (hE : ∀ fault m', E fault m' → E' fault m') : Ends P' E' x m := by
  rw [Ends] at h ⊢
  split at h
  · exact hP _ _ h
  · exact hE _ _ h

theorem bind (hx : Ends P E x m) (hf : ∀ a m', P a m' → Ends Q E (f a) m') :
    Ends Q E (x >>= f) m := by
  rw [Ends] at hx
  split at hx
  · next a m' h =>
    rw [Ends, bind_of_ok h]
    exact hf a m' hx
  · next fault m' h =>
    rw [Ends, bind_of_error h]
    exact hx

theorem tryCatch {g : Fault → Run α} (hx : Ends P E x m)
    (hg : ∀ fault m', E fault m' → Ends P E' (g fault) m') : Ends P E' (tryCatch x g) m := by
  rw [Ends] at hx
  change match EStateM.tryCatch x g m with
    | .ok a m' => P a m'
    | .error fault m' => E' fault m'
  delta EStateM.tryCatch
  dsimp only
  split at hx
  · next a m' h =>
    rw [h]
    exact hx
  · next fault m' h =>
    rw [h]
    exact hg fault m' hx

/-- What is raised is no result. -/
theorem raise {v : Value} : Ends P (fun _ _ => True) (Run.raise v : Run α) m := by
  unfold Run.raise
  split
  · split <;> trivial
  · trivial

end Ends

/-! ### Faults -/

variable (c : Caller) {m : Machine}

/-- What is done about a fault leaves the activations. -/
theorem handled_ends (fault : Fault) :
    Ends (fun _ m' => m'.frames = m.frames) (fun _ _ => True) (handled c fault) m := by
  unfold handled
  split
  · refine .bind (P := fun s _ => s = m) rfl fun s _ hs => ?_
    refine .bind .any fun result m' _ => ?_
    change s.frames = m.frames
    rw [hs]
  · exact rfl

/-- A fault that no protected call catches ends the run. -/
theorem recover_ends (pinned holding : Nat) (fault : Fault) (uncaught : guard? m.frames = none) :
    Ends (fun _ _ => False) (fun _ _ => True) (recover c pinned holding fault) m := by
  unfold recover
  refine .bind (handled_ends c fault) fun fault m' hframes => ?_
  rw [← hframes] at uncaught
  split
  · trivial
  · refine .bind (P := fun s _ => s = m') rfl fun s m'' hs => ?_
    rw [hs, uncaught]
    trivial

end Run

/-! ### Runs -/

variable {m : Machine} {request : Request}

/-- A round of a run and the rounds after it. -/
theorem execute_ends {P : Request → Machine → Prop} {Q : Stop → Machine → Prop}
    (hreturned : ∀ vs, request ≠ .returned vs) (hyielded : ∀ vs, request ≠ .yielded vs)
    (round : ∀ c, Run.Ends P (fun _ m' => Run.guard? m'.frames = none) (Run.advance c request) m)
    (rest : ∀ n pinned holding next m', P next m' →
      Run.Ends Q (fun _ _ => True) (execute n pinned holding next) m')
    (n pinned holding : Nat) :
    Run.Ends Q (fun _ _ => True) (execute n pinned holding request) m := by
  cases n with
  | zero => trivial
  | succ n =>
    rw [execute_succ n pinned holding hreturned hyielded]
    have hround : Run.Ends P (fun _ _ => True)
        (tryCatch (Run.advance (.within n) request) (Run.recover (.within n) pinned holding)) m :=
      (round _).tryCatch fun fault m' uncaught =>
        (Run.recover_ends _ pinned holding fault uncaught).mono (fun _ _ h => h.elim) fun _ _ h => h
    exact hround.bind fun next m' hnext => rest n pinned holding next m' hnext

/-- A run that has returned. -/
theorem execute_returned_ends (vs : Array Value) (n pinned holding : Nat) :
    Run.Ends (fun stop _ => stop = .returned vs) (fun _ _ => True)
      (execute n pinned holding (.returned vs)) m := by
  cases n with
  | zero => trivial
  | succ n => exact rfl

namespace Run

/-- Whatever is carried out on a machine at rest, its result is the one of the computation. -/
theorem outside_ends {α : Type} {P : α → Prop} {c : Caller} {body : Caller → Run α}
    (h : Ends (fun a _ => P a) (fun _ _ => True) (body c) m.rested) :
    Ends (fun a _ => P a) (fun _ _ => True) (outside c body) m := by
  have hcaught : Ends (fun outcome _ => ∀ a, outcome = .ok a → P a) (fun _ _ => True)
      (tryCatch (do return Except.ok (← body c)) fun fault => return .error fault :
        Run (Except Fault α)) m.rested := by
    refine .tryCatch (E := fun _ _ => True) (h.bind fun a _ ha => ?_) fun fault _ _ => ?_
    · rintro _ ⟨⟩
      exact ha
    · exact nofun
  unfold outside
  refine .bind (P := fun _ m' => m' = m.rested) rfl fun _ m' hm' => ?_
  subst hm'
  refine hcaught.bind fun outcome m' houtcome => ?_
  split
  · next a => exact houtcome a rfl
  · trivial
  · refine .bind .any fun _ _ _ => .bind .any fun _ _ _ => .bind .any fun m' _ _ => ?_
    split
    · trivial
    · exact .bind .any fun _ _ _ => .bind .any fun _ _ _ => .bind .any fun _ _ _ => .raise

/-- A call on a machine at rest has the results of the run that it begins. -/
theorem callFromOutside_ends {P : Array Value → Prop} {steps : Nat} {f : Value} {args : Array Value}
    {request : Request} {m' : Machine} (begins : callValue f args .done m.rested = .ok request m')
    (run : ∀ pinned holding, Ends
      (fun stop _ => ∀ vs, stop = .returned vs ∨ stop = .yielded vs → P vs) (fun _ _ => True)
      (execute steps pinned holding request) m') :
    Ends (fun vs _ => P vs) (fun _ _ => True) (callFromOutside steps f args) m := by
  refine outside_ends (.bind (P := fun r s => r = request ∧ s = m') (.of_ok begins ⟨rfl, rfl⟩) ?_)
  rintro _ _ ⟨rfl, rfl⟩
  refine .bind (run _ _) fun stop _ hstop => ?_
  split
  · exact hstop _ (.inl rfl)
  · exact hstop _ (.inr rfl)

end Run

end PixelHost.Lua
