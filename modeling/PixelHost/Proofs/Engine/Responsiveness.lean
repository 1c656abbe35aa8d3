import PixelHost.Proofs.Engine.Cadence
import PixelHost.Proofs.Engine.Sleeping

/-!
# How soon a working scheduler answers a signal

A scheduler that is told to stop carries out the cycle or the slice of sleep that it is already bound
to, and nothing more. A request that is raised while it sleeps is noticed after the slice that has
begun. Between these looks anything may arrive from outside.

## Main definitions

* `Phase.ahead`, `Phase.stepsToEnd` — what a scheduler that is to stop is still bound to.
* `Worker.Paced` — no slice is longer than the quantum.
* `Worker.Responsive` — how soon a worker answers a signal.

## Main results

* `Worker.responsive_of_run` — every sleep is exact, and every worker answers soon.
-/

namespace PixelHost

variable {I : Interpreter}

/-- A slice of sleep is over. -/
def Moment.isSlice (m : Moment I) : Bool :=
  match m.event with
  | .slept _ => true
  | _ => false

theorem Moment.nanoseconds_eq_zero {m : Moment I} (h : m.isSlice = false) : m.nanoseconds = 0 := by
  obtain ⟨move, event, record⟩ := m
  cases event with
  | slept slice => cases h
  | _ => rfl

namespace Phase

/-- How many cycles and slices of sleep a scheduler is bound to that is to stop: it does not look at
the stop signal again before them. -/
def ahead : Phase → Nat
  | .cycling | .lookingForRequest _ | .sleeping _ _ => 1
  | .deciding | .lookingForStop _ | .ended => 0

theorem ahead_le_one (phase : Phase) : phase.ahead ≤ 1 := by
  cases phase <;> simp only [ahead] <;> omega

/-- With how many steps a scheduler that is to stop comes to its end. -/
def stepsToEnd : Phase → Nat
  | .lookingForRequest _ => 3
  | .cycling | .sleeping _ _ => 2
  | .deciding | .lookingForStop _ => 1
  | .ended => 0

theorem stepsToEnd_le_three (phase : Phase) : phase.stepsToEnd ≤ 3 := by
  cases phase <;> simp only [stepsToEnd] <;> omega

/-- How many slices have begun. -/
def begun : Phase → Nat
  | .sleeping _ _ => 1
  | _ => 0

theorem begun_le_one (phase : Phase) : phase.begun ≤ 1 := by
  cases phase <;> simp only [begun] <;> omega

end Phase

@[simp]
theorem Scheduler.quantum_withIdleFloor (s : Scheduler) : s.withIdleFloor.quantum = s.quantum := by
  rw [withIdleFloor]
  split
  · split <;> rfl
  · rfl

theorem Scheduler.quantum_start_pos (initialDelay : Delay) (quantum : Duration) :
    0 < (start initialDelay quantum).quantum.nanoseconds :=
  Nat.lt_of_lt_of_le (by decide) (Nat.le_max_right _ _)

/-- Nothing changes the quantum. -/
theorem Player.Taken.quantum_eq {p q : Player I} {step : Step I} (taken : p.Taken step q) :
    q.scheduler.quantum = p.scheduler.quantum := by
  cases taken with
  | idle quiet empty => exact p.scheduler.quantum_withIdleFloor
  | failed quiet found ran => exact p.scheduler.quantum_withIdleFloor
  | _ => rfl

namespace Worker

variable {w w' last : Worker I} {m : Moment I} {moves : List Move} {moments : List (Moment I)}
  {quantum : Duration}

/-! ### The length of slices -/

/-- A worker with a quantum. A slice that has begun is no longer. -/
structure Paced (quantum : Duration) (w : Worker I) : Prop where
  quantum_eq : w.scheduler.quantum = quantum
  slice_le : ∀ slice rest, w.phase = .sleeping slice rest → slice.nanoseconds ≤ quantum.nanoseconds

theorem Paced.start (state : I.State) (sink : Sink) (initialDelay : Delay) (quantum : Duration) :
    Paced (Scheduler.start initialDelay quantum).quantum
      (Worker.start (I := I) state sink initialDelay quantum) where
  quantum_eq := rfl
  slice_le := nofun

theorem Paced.step (h : Paced quantum w) (moved : Moved w m w') :
    Paced quantum w' ∧ m.nanoseconds ≤ quantum.nanoseconds := by
  cases moved with
  | submitted taken => exact ⟨⟨h.quantum_eq, h.slice_le⟩, Nat.zero_le _⟩
  | cycled here taken => exact ⟨⟨taken.quantum_eq.trans h.quantum_eq, nofun⟩, Nat.zero_le _⟩
  | lost here taken => exact ⟨⟨taken.quantum_eq.trans h.quantum_eq, nofun⟩, Nat.zero_le _⟩
  | dozes here cut =>
    obtain ⟨-, hshort, -⟩ := Scheduler.slice_of_nextSlice cut
    rw [h.quantum_eq] at hshort
    refine ⟨⟨h.quantum_eq, fun slice rest hphase => ?_⟩, Nat.zero_le _⟩
    cases hphase
    exact hshort
  | slept here => exact ⟨⟨h.quantum_eq, nofun⟩, h.slice_le _ _ here⟩
  | stop => exact ⟨⟨h.quantum_eq, h.slice_le⟩, Nat.zero_le _⟩
  | rests here => exact ⟨h, Nat.zero_le _⟩
  | _ => exact ⟨⟨h.quantum_eq, nofun⟩, Nat.zero_le _⟩

/-- What is slept in a run is no more than a quantum for each slice. -/
theorem Paced.history (h : Paced quantum w) (moves : List Move) :
    Paced quantum (w.history moves).2 ∧ (slept (w.history moves).1).nanoseconds ≤
      (w.history moves).1.countP (·.isSlice) * quantum.nanoseconds := by
  refine w.history_induction (motive := fun so_far u => Paced quantum u ∧
    (slept so_far).nanoseconds ≤ so_far.countP (·.isSlice) * quantum.nanoseconds)
    ⟨h, Nat.zero_le _⟩ (fun so_far u m u' hso_far moved => ?_) moves
  obtain ⟨hpaced, hm⟩ := hso_far.1.step moved
  refine ⟨hpaced, ?_⟩
  rw [slept_concat, countP_concat, Nat.add_mul]
  refine Nat.add_le_add hso_far.2 ?_
  cases hslice : m.isSlice with
  | true => rwa [Bool.toNat_true, Nat.one_mul]
  | false => exact (Moment.nanoseconds_eq_zero hslice).trans_le (Nat.zero_le _)

/-! ### Bounds on what is still to come -/

/-- If every moment that counts is paid from a reserve, no more of them come than the reserve
allows. -/
theorem countP_history_le (reserve : Phase → Nat) (kept : Worker I → Prop)
    (allowed : Moment I → Prop) {counts : Moment I → Bool}
    (step : ∀ u m u', kept u → allowed m → Moved u m u' →
      kept u' ∧ (counts m).toNat + reserve u'.phase ≤ reserve u.phase)
    (start : kept w) (moves : List Move) (hallowed : ∀ m ∈ (w.history moves).1, allowed m) :
    (w.history moves).1.countP counts ≤ reserve w.phase := by
  have h := w.history_induction (motive := fun so_far u => (∀ m ∈ so_far, allowed m) →
    kept u ∧ so_far.countP counts + reserve u.phase ≤ reserve w.phase)
    (fun _ => ⟨start, Nat.le_of_eq (Nat.zero_add _)⟩)
    (fun so_far u m u' ih moved hmem => ?_) moves
  · exact Nat.le_of_add_right_le (h hallowed).2
  · obtain ⟨hkept, hsum⟩ := ih fun x hx => hmem x (List.mem_append_left _ hx)
    obtain ⟨hkept', hm⟩ := step u m u' hkept (hmem m (List.mem_append_right _ List.mem_cons_self)) moved
    refine ⟨hkept', ?_⟩
    rw [countP_concat]
    omega

/-! ### Once it is told to stop -/

theorem Moved.halted (moved : Moved w m w') (halted : w.running = false) :
    w'.running = false ∧ (m.isCycle || m.isSlice).toNat + w'.phase.ahead ≤ w.phase.ahead := by
  cases moved with
  | submitted taken => exact ⟨halted, Nat.le_of_eq (Nat.zero_add _)⟩
  | stop => exact ⟨rfl, Nat.le_of_eq (Nat.zero_add _)⟩
  | goes here running => exact nomatch halted.symm.trans running
  | ends here halted' => exact ⟨halted, Nat.zero_le _⟩
  | cycled here taken =>
    rw [here]
    exact ⟨halted, Nat.le_refl 1⟩
  | lost here taken =>
    rw [here]
    exact ⟨halted, Nat.le_refl 1⟩
  | sleepsOn here running => exact nomatch halted.symm.trans running
  | stopped here halted' => exact ⟨halted, Nat.zero_le _⟩
  | wakes here woken => exact ⟨halted, Nat.zero_le _⟩
  | dozes here cut =>
    rw [here]
    exact ⟨halted, Nat.le_refl 1⟩
  | slept here =>
    rw [here]
    exact ⟨halted, Nat.le_refl 1⟩
  | rests here => exact ⟨halted, Nat.le_of_eq (Nat.zero_add _)⟩

/-- A scheduler that has ended does not wake up. -/
theorem Moved.ended (moved : Moved w m w') (ended : w.phase = .ended) :
    w'.phase = .ended ∧ ∀ outcome, m.event ≠ .woke outcome := by
  cases moved with
  | submitted taken => exact ⟨ended, nofun⟩
  | stop => exact ⟨ended, nofun⟩
  | rests here => exact ⟨ended, nofun⟩
  | _ here => exact nomatch ended.symm.trans here

theorem not_woke_of_ended (ended : w.phase = .ended) (moves : List Move) (outcome : SleepOutcome) :
    .woke outcome ∉ (w.run moves).1 := by
  induction moves generalizing w with
  | nil => exact List.not_mem_nil
  | cons m rest ih =>
    have hmove : w.move m = ((w.recorded m).1.event, (w.recorded m).2) := (w.moved m).move_eq
    obtain ⟨hended, hasleep⟩ := (w.moved m).ended ended
    simp only [run, hmove, List.mem_cons, not_or]
    exact ⟨(hasleep outcome).symm, ih hended⟩

/-- Every step of its own brings a scheduler that is to stop nearer to its end. -/
theorem Moved.nearer (moved : Moved w m w') (halted : w.running = false) :
    w'.phase = .ended ∨ m.isOwn.toNat + w'.phase.stepsToEnd ≤ w.phase.stepsToEnd := by
  cases moved with
  | submitted taken => exact .inr (Nat.le_of_eq (Nat.zero_add _))
  | stop => exact .inr (Nat.le_of_eq (Nat.zero_add _))
  | goes here running => exact nomatch halted.symm.trans running
  | ends here halted' => exact .inl rfl
  | cycled here taken =>
    rw [here]
    exact .inr (Nat.le_refl 2)
  | lost here taken => exact .inl rfl
  | sleepsOn here running => exact nomatch halted.symm.trans running
  | stopped here halted' => exact .inl rfl
  | wakes here woken =>
    rw [here]
    exact .inr (Nat.le_succ 2)
  | dozes here cut =>
    rw [here]
    exact .inr (Nat.le_refl 3)
  | slept here =>
    rw [here]
    exact .inr (Nat.le_refl 2)
  | rests here => exact .inl here

theorem ended_of_halted (halted : w.running = false) (moves : List Move)
    (enough : w.phase.stepsToEnd ≤ (w.history moves).1.countP (·.isOwn)) :
    (w.history moves).2.phase = .ended := by
  -- once it has ended its steps bring it no further, so the sum is not kept
  have h := w.history_induction (motive := fun so_far u => u.running = false ∧
    (u.phase = .ended ∨ so_far.countP (·.isOwn) + u.phase.stepsToEnd ≤ w.phase.stepsToEnd))
    ⟨halted, .inr (Nat.le_of_eq (Nat.zero_add _))⟩ (fun so_far u m u' hso_far moved => ?_) moves
  · refine h.2.elim id fun hsum => ?_
    have hnone : (w.history moves).2.phase.stepsToEnd = 0 := by omega
    cases hphase : (w.history moves).2.phase with
    | ended => rfl
    | _ =>
      rw [hphase] at hnone
      cases hnone
  · refine ⟨(moved.halted hso_far.1).1, ?_⟩
    rcases hso_far.2 with hended | hsum
    · exact .inl (moved.ended hended).1
    · refine (moved.nearer hso_far.1).imp_right fun hm => ?_
      rw [countP_concat]
      omega

/-! ### While a request is pending -/

/-- A scheduler that sees a request does not begin a slice. -/
theorem Moved.attends (moved : Moved w m w') (pending : w.engine.reset.isPending = true)
    (no_cycle : m.isCycle = false) :
    m.isSlice.toNat + w'.phase.begun ≤ w.phase.begun := by
  cases moved with
  | submitted taken => exact Nat.le_of_eq (Nat.zero_add _)
  | stop => exact Nat.le_of_eq (Nat.zero_add _)
  | cycled here taken => cases no_cycle
  | lost here taken => cases no_cycle
  | dozes here cut =>
    obtain ⟨hquiet, -⟩ := Scheduler.slice_of_nextSlice cut
    exact nomatch hquiet.symm.trans pending
  | slept here =>
    rw [here]
    exact Nat.le_refl 1
  | rests here => exact Nat.le_of_eq (Nat.zero_add _)
  | _ => exact Nat.zero_le _

/-! ### Every worker -/

/-- How soon a worker with a quantum answers a signal, whatever happens afterwards. -/
structure Responsive (quantum : Duration) (w : Worker I) : Prop where
  quantum_eq : w.scheduler.quantum = quantum
  sleeps : ∀ running pending looks, w.scheduler.Sleeps running pending looks
    (w.scheduler.sleep running pending looks).1 (w.scheduler.sleep running pending looks).2
  /-- After a cycle it sleeps as its scheduler does with the signals that it sees. -/
  rests : ∀ event u, w.step = (.cycle event, u) → ∀ moves events outcome last,
    u.run moves = (events ++ [.woke outcome], last) →
    (∀ event ∈ events, ∀ earlier, event ≠ .woke earlier) →
    u.scheduler.sleep (fun n => (u.looks moves).1.getD n true)
      (fun n => (u.looks moves).2.getD n false) ((slices events).length + 1) =
        (slices events, some outcome)
  /-- When it is told to stop, it carries out at most one more cycle or one more slice of sleep. It
  has ended after three steps of its own. -/
  stops : ∀ moves, let (moments, last) := w.history (.stop :: moves)
    moments.countP (fun m => m.isCycle || m.isSlice) ≤ 1 ∧
      (slept moments).nanoseconds ≤ quantum.nanoseconds ∧
      (3 ≤ moments.countP (·.isOwn) → last.phase = .ended)
  /-- Once a request is pending, it sleeps for at most one more slice before the next cycle. -/
  attends : w.engine.reset.isPending = true → ∀ moves, let (moments, _) := w.history moves
    (∀ m ∈ moments, m.isCycle = false) → moments.countP (·.isSlice) ≤ 1 ∧
      (slept moments).nanoseconds ≤ quantum.nanoseconds

theorem history_stop (w : Worker I) (moves : List Move) :
    w.history (.stop :: moves) = (⟨.stop, .stopRequested, []⟩ ::
        (history { w with running := false } moves).1,
      (history { w with running := false } moves).2) := by
  have hstop : w.recorded .stop = (⟨.stop, .stopRequested, []⟩, { w with running := false }) := by
    simp only [recorded, recording, move, plain, Engine.plain_recording]
    rfl
  simp only [history, hstop]

/-- A worker that sleeps for at most one slice does not sleep for longer than the quantum. -/
theorem Paced.slept_le (h : Paced quantum w) {moves : List Move}
    (one : (w.history moves).1.countP (·.isSlice) ≤ 1) :
    (slept (w.history moves).1).nanoseconds ≤ quantum.nanoseconds :=
  (h.history moves).2.trans ((Nat.mul_le_mul_right _ one).trans_eq (Nat.one_mul _))

/-- After a cycle a worker sleeps as its scheduler does, for a cycle that is lost is the last moment
at which it is awake. -/
theorem sleep_of_cycle {event : CycleEvent} {events : List Event} {outcome : SleepOutcome}
    (cycle : w.step = (.cycle event, w')) (run : w'.run moves = (events ++ [.woke outcome], last))
    (asleep : ∀ event ∈ events, ∀ earlier, event ≠ .woke earlier) :
    w'.scheduler.sleep (fun n => (w'.looks moves).1.getD n true)
      (fun n => (w'.looks moves).2.getD n false) ((slices events).length + 1) =
        (slices events, some outcome) := by
  have hphase := phase_of_cycle cycle
  by_cases hlost : event = .lost
  · rw [hlost] at hphase
    have hnever := not_woke_of_ended hphase moves outcome
    rw [run] at hnever
    exact absurd (List.mem_append_right _ List.mem_cons_self) hnever
  · rw [after_of_ne_lost hlost] at hphase
    exact sleep_of_run hphase run asleep

theorem Paced.responsive (h : Paced quantum w) (positive : 0 < quantum.nanoseconds) :
    Responsive quantum w where
  quantum_eq := h.quantum_eq
  sleeps := w.scheduler.sleeps (h.quantum_eq ▸ positive)
  rests := fun _ _ cycle _ _ _ _ run asleep => sleep_of_cycle cycle run asleep
  stops := by
    intro moves
    have hcount : (w.history (.stop :: moves)).1.countP (fun m => m.isCycle || m.isSlice) ≤ 1 := by
      rw [history_stop, List.countP_cons_of_neg Bool.noConfusion]
      have hahead := countP_history_le Phase.ahead (·.running = false) (fun _ => True)
        (fun u m u' halted _ moved => moved.halted halted) (w := { w with running := false }) rfl moves
        fun _ _ => trivial
      exact hahead.trans w.phase.ahead_le_one
    have hslices : (w.history (.stop :: moves)).1.countP (·.isSlice) ≤ 1 :=
      (List.countP_mono_left fun m _ hm => by rw [hm, Bool.or_true]).trans hcount
    have hends : 3 ≤ (w.history (.stop :: moves)).1.countP (·.isOwn) →
        (w.history (.stop :: moves)).2.phase = .ended := by
      rw [history_stop, List.countP_cons_of_neg Bool.noConfusion]
      exact fun enough => ended_of_halted rfl moves (w.phase.stepsToEnd_le_three.trans enough)
    exact ⟨hcount, h.slept_le hslices, hends⟩
  attends := by
    intro pending moves no_cycle
    have hcount := countP_history_le Phase.begun (·.engine.reset.isPending = true)
      (·.isCycle = false)
      (fun u m u' pending hm moved => ⟨moved.pending hm pending, moved.attends pending hm⟩)
      pending moves no_cycle
    have hone : (w.history moves).1.countP (·.isSlice) ≤ 1 := hcount.trans w.phase.begun_le_one
    exact ⟨hone, h.slept_le hone⟩

/-- Whatever was done before, sleeps are exact, and signals are answered soon. -/
theorem responsive_of_run (state : I.State) (sink : Sink) (initialDelay : Delay)
    (quantum : Duration) (before : List Move) :
    Responsive (Scheduler.start initialDelay quantum).quantum
      ((start (I := I) state sink initialDelay quantum).run before).2 := by
  rw [run_eq_moments]
  have hpaced := ((Paced.start (I := I) state sink initialDelay quantum).history before).1
  exact hpaced.responsive (Scheduler.quantum_start_pos initialDelay quantum)

end Worker

end PixelHost
