import PixelHost.Proofs.Engine.HandOver

/-!
# What the counters of the engine say

Each counter of the engine is the number of steps of one kind. So the counters are tied to each
other, to the request that is pending and to the program in the slot: what comes in goes out again or
is still there. A step that is lost is counted when it begins and has no end to be counted. Two of the
laws are off by the number of such steps, and hold as they are if there are none.

## Main definitions

* `Counted` — the counters are the numbers of steps of their kinds.
* `Overtaken` — a published upload was followed by another one before its delay was adopted.
* `Player.visits` — the steps of a run with the player that took each.

## Main results

* `Player.Taken.slot_balance`, `Player.slot_balance` — programs that enter and leave the slot.
* `Player.conserved_of_history` — the laws of the counters after every run.
-/

namespace PixelHost

variable {I : Interpreter}

/-! ### Kinds of steps -/

namespace Step

/-- An upload. -/
def isUpload (s : Step I) : Bool :=
  match s.answer with
  | .uploaded _ => true
  | .cycled _ => false

/-- An upload that is published. -/
def isAccepted (s : Step I) : Bool := s.request?.isSome

/-- A published upload with a finite delay. -/
def installs (s : Step I) : Bool :=
  match s.request? with
  | some (.millis _) => true
  | _ => false

/-- A cycle that adopts a request. -/
def adopts (s : Step I) : Bool := s.adopted?.isSome

/-- An upload that is lost. -/
def isLostUpload (s : Step I) : Bool :=
  match s.answer with
  | .uploaded .lost => true
  | _ => false

/-- A cycle that invokes the program. -/
def isRun (s : Step I) : Bool :=
  match s.answer with
  | .cycled (.executed _ _) | .cycled (.failed _) | .cycled .lost => true
  | _ => false

/-- A cycle whose invocation is lost. -/
def isLostRun (s : Step I) : Bool :=
  match s.answer with
  | .cycled .lost => true
  | _ => false

/-- A cycle in which the program fails. -/
def isFailure (s : Step I) : Bool :=
  match s.answer with
  | .cycled (.failed _) => true
  | _ => false

/-- A cycle in which the program asks for no further invocation. -/
def finishes (s : Step I) : Bool :=
  match s.answer with
  | .cycled (.executed _ .forever) => true
  | _ => false

/-- A step that offers a frame to the sink. -/
def emits (s : Step I) : Bool :=
  match s.answer with
  | .uploaded (.ok _) | .cycled (.executed _ _) => true
  | _ => false

end Step

/-- The counters are the numbers of steps of their kinds. -/
structure Counted (steps : List (Step I)) (m : Metrics) : Prop where
  compiles : m.compiles = steps.countP (·.isUpload)
  accepted : m.uploadsAccepted = steps.countP (·.isAccepted)
  rejected : m.uploadsRejected = steps.countP (·.isRejected)
  runs : m.periodicRuns = steps.countP (·.isRun)
  failures : m.periodicFailures = steps.countP (·.isFailure)
  frames : m.framesWritten + m.sinkErrors = steps.countP (·.emits)
  adopted : m.resetsAdopted = steps.countP (·.adopts)

/-- A published upload whose delay was not adopted since. -/
def Awaited (steps : List (Step I)) : Prop :=
  ∃ before first after, steps = before ++ first :: after ∧ first.isAccepted = true ∧
    ∀ s ∈ after, s.adopts = false

/-- A published upload that was followed by another one before its delay was adopted. -/
def Overtaken (steps : List (Step I)) : Prop :=
  ∃ before second after, steps = before ++ second :: after ∧ Awaited before ∧
    second.isAccepted = true

/-! ### Numbers of steps -/

theorem countP_cons_toNat {α : Type} (p : α → Bool) (a : α) (as : List α) :
    (a :: as).countP p = (p a).toNat + as.countP p := by
  rw [List.countP_cons, Nat.add_comm]
  cases p a <;> rfl

namespace Step

/-- An upload is accepted, rejected or lost. -/
theorem isUpload_toNat (s : Step I) :
    s.isUpload.toNat = s.isAccepted.toNat + s.isRejected.toNat + s.isLostUpload.toNat := by
  obtain ⟨op, answer, record⟩ := s
  rcases answer with (_ | _ | _) | _ <;> rfl

/-- A frame comes of an accepted upload, or of an invocation that neither fails nor is lost. -/
theorem emits_toNat (s : Step I) :
    s.emits.toNat + s.isFailure.toNat + s.isLostRun.toNat = s.isAccepted.toNat + s.isRun.toNat := by
  obtain ⟨op, answer, record⟩ := s
  rcases answer with (_ | _ | _) | (_ | _ | _ | _ | _) <;> rfl

/-- What fails was invoked. -/
theorem isRun_of_isFailure {s : Step I} (h : s.isFailure = true) : s.isRun = true := by
  obtain ⟨op, answer, record⟩ := s
  rcases answer with (_ | _ | _) | (_ | _ | _ | _ | _) <;> first | exact h | rfl

theorem isLostUpload_of_not_isLost {s : Step I} (h : s.isLost = false) : s.isLostUpload = false := by
  obtain ⟨op, answer, record⟩ := s
  rcases answer with (_ | _ | _) | _ <;> first | exact h | rfl

theorem isLostRun_of_not_isLost {s : Step I} (h : s.isLost = false) : s.isLostRun = false := by
  obtain ⟨op, answer, record⟩ := s
  rcases answer with _ | (_ | _ | _ | _ | _) <;> first | exact h | rfl

end Step

theorem countP_isUpload (steps : List (Step I)) :
    steps.countP (·.isUpload) = steps.countP (·.isAccepted) + steps.countP (·.isRejected) +
      steps.countP (·.isLostUpload) := by
  induction steps with
  | nil => rfl
  | cons s steps ih =>
    have hs := s.isUpload_toNat
    rw [countP_cons_toNat, countP_cons_toNat, countP_cons_toNat, countP_cons_toNat]
    omega

theorem countP_emits (steps : List (Step I)) :
    steps.countP (·.emits) + steps.countP (·.isFailure) + steps.countP (·.isLostRun) =
      steps.countP (·.isAccepted) + steps.countP (·.isRun) := by
  induction steps with
  | nil => rfl
  | cons s steps ih =>
    have hs := s.emits_toNat
    rw [countP_cons_toNat, countP_cons_toNat, countP_cons_toNat, countP_cons_toNat,
      countP_cons_toNat]
    omega

theorem countP_eq_zero_of_none_lost {steps : List (Step I)} {p : Step I → Bool}
    (none_lost : ∀ s ∈ steps, s.isLost = false) (lost : ∀ s : Step I, s.isLost = false → p s = false) :
    steps.countP p = 0 :=
  List.countP_eq_zero.mpr fun s hs => by
    rw [lost s (none_lost s hs)]
    exact Bool.false_ne_true

theorem countP_isFailure_le (steps : List (Step I)) :
    steps.countP (·.isFailure) ≤ steps.countP (·.isRun) :=
  List.countP_mono_left fun _ _ => Step.isRun_of_isFailure

/-! ### Counting -/

/-- What a step adds to the counters. -/
structure Counts (s : Step I) (m m' : Metrics) : Prop where
  compiles : m'.compiles = m.compiles + s.isUpload.toNat
  accepted : m'.uploadsAccepted = m.uploadsAccepted + s.isAccepted.toNat
  rejected : m'.uploadsRejected = m.uploadsRejected + s.isRejected.toNat
  runs : m'.periodicRuns = m.periodicRuns + s.isRun.toNat
  failures : m'.periodicFailures = m.periodicFailures + s.isFailure.toNat
  frames : m'.framesWritten + m'.sinkErrors = m.framesWritten + m.sinkErrors + s.emits.toNat
  adopted : m'.resetsAdopted = m.resetsAdopted + s.adopts.toNat

/-- The other counters do not depend on what becomes of a frame. -/
theorem Player.framesCounted_eq (taken : Bool) (m : Metrics) :
    framesCounted taken m = { m with
      framesWritten := (framesCounted taken m).framesWritten
      sinkErrors := (framesCounted taken m).sinkErrors } := by
  cases taken <;> rfl

/-- A step counts once for each of its kinds. -/
theorem Player.Taken.counts {p q : Player I} {s : Step I} (taken : p.Taken s q) :
    Counts s p.engine.metrics q.engine.metrics := by
  cases taken with
  | unfit compiled => exact ⟨rfl, rfl, rfl, rfl, rfl, rfl, rfl⟩
  | rejected compiled ran => exact ⟨rfl, rfl, rfl, rfl, rfl, rfl, rfl⟩
  | @accepted source chunk outcome state state' compiled ran =>
    have hsum := Player.framesCounted_sum (p.engine.sink.write outcome.frame).1
      { p.engine.metrics with
        compiles := p.engine.metrics.compiles + 1
        uploadsAccepted := p.engine.metrics.uploadsAccepted + 1 }
    constructor
    case frames => exact hsum
    all_goals rw [Player.framesCounted_eq]; rfl
  | adopted pending => exact ⟨rfl, rfl, rfl, rfl, rfl, rfl, rfl⟩
  | idle quiet empty => exact ⟨rfl, rfl, rfl, rfl, rfl, rfl, rfl⟩
  | @executed program outcome state quiet found ran =>
    have hsum := Player.framesCounted_sum (p.engine.sink.write outcome.frame).1
      { p.engine.metrics with periodicRuns := p.engine.metrics.periodicRuns + 1 }
    constructor
    case frames => exact hsum
    all_goals rw [Player.framesCounted_eq]; rfl
  | failed quiet found ran => exact ⟨rfl, rfl, rfl, rfl, rfl, rfl, rfl⟩
  | lostUpload loses => exact ⟨rfl, rfl, rfl, rfl, rfl, rfl, rfl⟩
  | lostRun quiet found ran => exact ⟨rfl, rfl, rfl, rfl, rfl, rfl, rfl⟩

theorem Counted.step {steps : List (Step I)} {p q : Player I} {s : Step I}
    (h : Counted steps p.engine.metrics) (taken : p.Taken s q) :
    Counted (steps ++ [s]) q.engine.metrics where
  compiles := by rw [countP_concat, ← h.compiles, taken.counts.compiles]
  accepted := by rw [countP_concat, ← h.accepted, taken.counts.accepted]
  rejected := by rw [countP_concat, ← h.rejected, taken.counts.rejected]
  runs := by rw [countP_concat, ← h.runs, taken.counts.runs]
  failures := by rw [countP_concat, ← h.failures, taken.counts.failures]
  frames := by rw [countP_concat, ← h.frames, taken.counts.frames]
  adopted := by rw [countP_concat, ← h.adopted, taken.counts.adopted]

/-! ### Requests -/

/-- While a request is pending, and only then, an upload waits for its delay to be adopted. The delays
of all uploads but those that were overtaken were adopted or are pending. -/
structure Requested (steps : List (Step I)) (p : Player I) : Prop where
  awaited : p.engine.reset.isPending = true ↔ Awaited steps
  overtaken : ∃ n, steps.countP (·.isAccepted) =
    steps.countP (·.adopts) + p.engine.reset.isPending.toNat + n ∧ (n = 0 ↔ ¬Overtaken steps)

section

variable {steps : List (Step I)} {s : Step I}

theorem awaited_concat_of_accepted (accepted : s.isAccepted = true) : Awaited (steps ++ [s]) :=
  ⟨steps, s, [], rfl, accepted, fun _ h => nomatch h⟩

/-- The last step of a run is one of the run before, or the one that was appended. -/
theorem append_cons_eq_concat {before after : List (Step I)} {t : Step I}
    (h : steps ++ [s] = before ++ t :: after) :
    (after = [] ∧ steps = before ∧ s = t) ∨
      ∃ after', after = after' ++ [s] ∧ steps = before ++ t :: after' := by
  rcases List.eq_nil_or_concat' after with rfl | ⟨after', last, rfl⟩
  · obtain ⟨rfl, hlast⟩ := List.append_inj' h rfl
    exact .inl ⟨rfl, rfl, List.singleton_inj.mp hlast⟩
  · rw [← List.cons_append, ← List.append_assoc] at h
    obtain ⟨rfl, hlast⟩ := List.append_inj' h rfl
    rw [List.singleton_inj.mp hlast]
    exact .inr ⟨after', rfl, rfl⟩

theorem awaited_concat (not_accepted : s.isAccepted = false) :
    Awaited (steps ++ [s]) ↔ Awaited steps ∧ s.adopts = false := by
  constructor
  · rintro ⟨before, first, after, heq, hfirst, hafter⟩
    rcases append_cons_eq_concat heq with ⟨-, -, rfl⟩ | ⟨after', rfl, rfl⟩
    · exact nomatch hfirst.symm.trans not_accepted
    · exact ⟨⟨before, first, after', rfl, hfirst, fun x hx => hafter x (List.mem_append_left _ hx)⟩,
        hafter s (List.mem_append_right _ List.mem_cons_self)⟩
  · rintro ⟨⟨before, first, after, rfl, hfirst, hafter⟩, hs⟩
    refine ⟨before, first, after ++ [s], by rw [List.append_assoc, List.cons_append], hfirst, ?_⟩
    intro x hx
    rcases List.mem_append.mp hx with hx | hx
    · exact hafter x hx
    · rw [List.mem_singleton.mp hx]
      exact hs

theorem overtaken_concat :
    Overtaken (steps ++ [s]) ↔ Overtaken steps ∨ Awaited steps ∧ s.isAccepted = true := by
  constructor
  · rintro ⟨before, second, after, heq, hawaited, hsecond⟩
    rcases append_cons_eq_concat heq with ⟨-, rfl, rfl⟩ | ⟨after', rfl, rfl⟩
    · exact .inr ⟨hawaited, hsecond⟩
    · exact .inl ⟨before, second, after', rfl, hawaited, hsecond⟩
  · rintro (⟨before, second, after, rfl, hawaited, hsecond⟩ | ⟨hawaited, hs⟩)
    · exact ⟨before, second, after ++ [s], by rw [List.append_assoc, List.cons_append], hawaited,
        hsecond⟩
    · exact ⟨steps, s, [], rfl, hawaited, hs⟩

/-- An upload that is published makes its request the pending one. -/
theorem Requested.step_accepted {p q : Player I} (h : Requested steps p)
    (accepted : s.isAccepted = true) (adopts : s.adopts = false)
    (pending : q.engine.reset.isPending = true) : Requested (steps ++ [s]) q := by
  obtain ⟨n, hn, hzero⟩ := h.overtaken
  refine ⟨iff_of_true pending (awaited_concat_of_accepted accepted),
    n + p.engine.reset.isPending.toNat, ?_, ?_⟩
  · rw [countP_concat, countP_concat, hn, accepted, adopts, pending]
    simp only [Bool.toNat_true, Bool.toNat_false]
    omega
  · rw [overtaken_concat, ← h.awaited, not_or, ← hzero, accepted]
    cases p.engine.reset.isPending <;> simp

/-- A step that is no accepted upload leaves the request pending, unless it adopts it. -/
theorem Requested.step_quiet {p q : Player I} (h : Requested steps p)
    (not_accepted : s.isAccepted = false)
    (pending : q.engine.reset.isPending = (p.engine.reset.isPending && !s.adopts))
    (found : s.adopts = true → p.engine.reset.isPending = true) : Requested (steps ++ [s]) q := by
  obtain ⟨n, hn, hzero⟩ := h.overtaken
  refine ⟨?_, n, ?_, ?_⟩
  · rw [awaited_concat not_accepted, ← h.awaited, pending, Bool.and_eq_true, Bool.not_eq_true']
  · rw [countP_concat, countP_concat, hn, not_accepted, pending]
    cases hs : s.adopts with
    | false => simp only [Bool.not_false, Bool.and_true, Bool.toNat_false, Nat.add_zero]
    | true =>
      rw [found hs]
      simp only [Bool.not_true, Bool.and_false, Bool.toNat_true, Bool.toNat_false, Nat.add_zero]
  · rw [overtaken_concat, not_accepted, hzero]
    simp only [Bool.false_eq_true, and_false, or_false]

theorem Requested.start {state : I.State} {sink : Sink} {initialDelay : Delay}
    {quantum : Duration} : Requested [] (Player.start state sink initialDelay quantum : Player I) where
  awaited := ⟨nofun, fun ⟨_, _, _, h, _⟩ => absurd h (by simp)⟩
  overtaken := ⟨0, rfl, iff_of_true rfl fun ⟨_, _, _, h, _⟩ => absurd h (by simp)⟩

theorem Requested.step {p q : Player I} (h : Requested steps p) (taken : p.Taken s q) :
    Requested (steps ++ [s]) q := by
  cases taken with
  | unfit | rejected | lostUpload => exact h.step_quiet rfl (Bool.and_true _).symm nofun
  | accepted => exact h.step_accepted rfl rfl (p.engine.reset.isPending_raise _)
  | adopted pending =>
    refine h.step_quiet rfl ?_ fun _ => ResetSignal.isPending_of_take pending
    exact p.engine.reset.isPending_take.trans (Bool.and_false _).symm
  | idle quiet | executed quiet | failed quiet | lostRun quiet =>
    refine h.step_quiet rfl ?_ nofun
    rw [ResetSignal.not_isPending_of_take quiet]
    exact p.engine.reset.isPending_take

end

/-! ### The slot -/

namespace Player

/-- The steps of a run with the player that took each. -/
def visits (p : Player I) : List Op → List (Player I × Step I)
  | [] => []
  | op :: rest => (p, (p.recorded op).1) :: (p.recorded op).2.visits rest

/-- An accepted upload that finds a program in the slot. -/
def replaces (visit : Player I × Step I) : Bool :=
  visit.1.engine.isRunning && visit.2.isAccepted

theorem visits_snd (p : Player I) (ops : List Op) :
    (p.visits ops).map Prod.snd = (p.history ops).1 := by
  induction ops generalizing p with
  | nil => rfl
  | cons op rest ih => simp only [visits, history, List.map_cons, ih]

/-- A program enters the slot when it is installed. It leaves the slot when it fails, when it asks for
no further invocation, and when an upload is accepted. -/
theorem Taken.slot_balance {p q : Player I} {s : Step I} (taken : p.Taken s q) :
    p.engine.isRunning.toNat + s.installs.toNat =
      s.isFailure.toNat + s.finishes.toNat + (replaces (p, s)).toNat +
        q.engine.isRunning.toNat := by
  obtain ⟨⟨interpreter, program, sink, reset, metrics⟩, scheduler⟩ := p
  cases taken with
  | unfit | rejected | lostUpload | adopted | idle | lostRun => cases program <;> rfl
  | @accepted source chunk outcome =>
    obtain ⟨frame, delay, memo⟩ := outcome
    cases program <;> cases delay <;> rfl
  | @executed program outcome state quiet found =>
    obtain rfl : _ = some program := found
    obtain ⟨frame, delay, memo⟩ := outcome
    cases delay <;> rfl
  | @failed program error state quiet found =>
    obtain rfl : _ = some program := found
    rfl

/-- What was in the slot or entered it has left it or is still there. -/
theorem slot_balance (p : Player I) (ops : List Op) :
    p.engine.isRunning.toNat + (p.history ops).1.countP (·.installs) =
      (p.history ops).1.countP (·.isFailure) + (p.history ops).1.countP (·.finishes) +
        (p.visits ops).countP replaces + (p.history ops).2.engine.isRunning.toNat := by
  induction ops generalizing p with
  | nil => simp only [history, visits, List.countP_nil]; omega
  | cons op rest ih =>
    have hstep := (p.taken op).slot_balance
    have hrest := ih (p.recorded op).2
    simp only [history, visits, countP_cons_toNat]
    omega

/-! ### The laws -/

/-- After every run from a player without a program, each counter is the number of steps of its kind,
and the counters, the pending request and the slot account for each other. Lost uploads are no more
than compiled, and lost invocations no more than begun. -/
theorem conserved_of_history (state : I.State) (sink : Sink) (initialDelay : Delay)
    (quantum : Duration) (ops : List Op) :
    let player : Player I := start state sink initialDelay quantum
    let (steps, p) := player.history ops
    let m := p.engine.metrics
    player.run ops = (steps.map Step.answer, p) ∧
      (player.visits ops).map Prod.snd = steps ∧
      Counted steps m ∧
      m.compiles = m.uploadsAccepted + m.uploadsRejected + steps.countP (·.isLostUpload) ∧
      m.framesWritten + m.sinkErrors + m.periodicFailures + steps.countP (·.isLostRun) =
        m.uploadsAccepted + m.periodicRuns ∧
      ((∀ s ∈ steps, s.isLost = false) →
        m.compiles = m.uploadsAccepted + m.uploadsRejected ∧
        m.framesWritten + m.sinkErrors + m.periodicFailures = m.uploadsAccepted + m.periodicRuns) ∧
      m.periodicFailures ≤ m.periodicRuns ∧
      m.resetsAdopted + p.engine.reset.isPending.toNat ≤ m.uploadsAccepted ∧
      (m.resetsAdopted + p.engine.reset.isPending.toNat = m.uploadsAccepted ↔ ¬Overtaken steps) ∧
      steps.countP (·.installs) = m.periodicFailures + steps.countP (·.finishes) +
        (player.visits ops).countP replaces + p.engine.isRunning.toNat := by
  intro player
  have counted : Counted (player.history ops).1 (player.history ops).2.engine.metrics :=
    history_induction (motive := fun steps p => Counted steps p.engine.metrics) player
      ⟨rfl, rfl, rfl, rfl, rfl, rfl, rfl⟩ (fun _ _ _ _ => Counted.step) ops
  have requested : Requested (player.history ops).1 (player.history ops).2 :=
    history_induction (motive := Requested) player Requested.start (fun _ _ _ _ => Requested.step)
      ops
  obtain ⟨n, hn, hzero⟩ := requested.overtaken
  have hslot := player.slot_balance ops
  have huploads := countP_isUpload (player.history ops).1
  have hframes := countP_emits (player.history ops).1
  refine ⟨player.run_eq_history ops, player.visits_snd ops, counted, ?_, ?_, fun none_lost => ?_, ?_,
    ?_, ?_, ?_⟩
  · rw [counted.compiles, counted.accepted, counted.rejected, huploads]
  · rw [counted.frames, counted.failures, counted.accepted, counted.runs, hframes]
  · rw [countP_eq_zero_of_none_lost none_lost fun _ => Step.isLostUpload_of_not_isLost] at huploads
    rw [countP_eq_zero_of_none_lost none_lost fun _ => Step.isLostRun_of_not_isLost] at hframes
    rw [counted.compiles, counted.frames, counted.failures, counted.accepted, counted.rejected,
      counted.runs]
    exact ⟨huploads, hframes⟩
  · rw [counted.failures, counted.runs]
    exact countP_isFailure_le _
  · rw [counted.adopted, counted.accepted, hn]
    omega
  · rw [counted.adopted, counted.accepted, hn, ← hzero]
    omega
  · rw [counted.failures, ← hslot]
    exact (Nat.zero_add _).symm

end Player

end PixelHost
