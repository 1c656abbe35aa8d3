import PixelHost.Proofs.Engine.Responsiveness

/-!
# A scheduler without a program

A cycle that finds no program, or one that fails, leaves the slot empty. The scheduler then waits for
a quantum at least, even if the latest program asked for no wait. So while nothing can be invoked the
scheduler does not spin: of such cycles there is one at most for each whole quantum that is slept and
for each request that is adopted, and one more.

The floor of the delay is the number of whole milliseconds of the quantum, in a word of 64 bits. So
the sleep takes the full quantum where this is a number of milliseconds that fits, as it is for every
quantum that is given in milliseconds.

## Main definitions

* `Delay.atLeast` — a delay with a floor.
* `CycleEvent.isFruitless` — a cycle after which there is no program because of what it found.
* `Player.Patient` — what the delay is after a cycle.
* `Worker.isAssured` — a whole quantum is slept or a request is adopted before the next other cycle.

## Main results

* `Worker.never_spins` — the delay after every cycle, and how many cycles are fruitless in a run.
-/

namespace PixelHost

variable {I : Interpreter}

/-- A delay that is not below a number of milliseconds. -/
def Delay.atLeast (floor : UInt64) : Delay → Delay
  | .millis ms => .millis (max ms floor)
  | .forever => .forever

/-- There was no program, or it failed. -/
def CycleEvent.isFruitless : CycleEvent → Bool
  | .idle | .failed _ => true
  | .adopted _ | .executed _ _ | .lost => false

/-! ### The floor of the delay -/

theorem toNat_max (a b : UInt64) : (max a b).toNat = max a.toNat b.toNat := by
  change (if a ≤ b then b else a).toNat = _
  by_cases h : a ≤ b
  · rw [if_pos h, Nat.max_eq_right (UInt64.le_iff_toNat_le.mp h)]
  · have hle : b.toNat ≤ a.toNat := Nat.le_of_not_le fun hle => h (UInt64.le_iff_toNat_le.mpr hle)
    rw [if_neg h, Nat.max_eq_left hle]

theorem Scheduler.withIdleFloor_eq (s : Scheduler) :
    s.withIdleFloor = { s with delay := s.delay.atLeast (UInt64.ofNat s.quantum.millis) } := by
  obtain ⟨delay, counter, quantum⟩ := s
  cases delay with
  | forever => rfl
  | millis ms =>
    simp only [withIdleFloor, Delay.atLeast]
    generalize UInt64.ofNat quantum.millis = floor
    have hmax : max ms floor = if ms < floor then floor else ms := by
      rw [← UInt64.toNat_inj, toNat_max]
      split
      case isTrue hless => exact Nat.max_eq_right (Nat.le_of_lt (UInt64.lt_iff_toNat_lt.mp hless))
      case isFalse hless =>
        exact Nat.max_eq_left (Nat.le_of_not_lt fun h => hless (UInt64.lt_iff_toNat_lt.mpr h))
    rw [hmax]
    split <;> rfl

@[simp]
theorem Duration.millis_ofMillis (ms : Nat) : (ofMillis ms).millis = ms :=
  Nat.mul_div_cancel _ (by decide)

/-- A delay with a quantum for its floor has no end, or it takes as many milliseconds. -/
theorem Delay.millis_le_of_atLeast {delay : Delay} {quantum d : Duration}
    (fits : quantum.millis < UInt64.size)
    (h : (delay.atLeast (UInt64.ofNat quantum.millis)).duration? = some d) :
    quantum.millis ≤ d.millis := by
  cases delay with
  | forever => cases h
  | millis ms =>
    cases h
    rw [Duration.millis_ofMillis, toNat_max, UInt64.toNat_ofNat_of_lt' fits]
    exact Nat.le_max_right _ _

theorem Duration.le_of_millis_le {ms : Nat} {d : Duration} (h : (ofMillis ms).millis ≤ d.millis) :
    (ofMillis ms).nanoseconds ≤ d.nanoseconds := by
  rw [millis_ofMillis] at h
  exact (Nat.mul_le_mul_right 1000000 h).trans (Nat.div_mul_le_self d.nanoseconds 1000000)

namespace Player

variable {p q : Player I} {step : Step I} {event : CycleEvent} {quantum : Duration}

/-! ### After a cycle -/

/-- What a scheduler with a quantum is after the next cycle. -/
structure Patient (quantum : Duration) (p : Player I) : Prop where
  quantum_eq : p.scheduler.quantum = quantum
  /-- The floor has an effect only where the slot is empty then. -/
  cycle : ∀ event q, p.act .cycle = (.cycled event, q) →
    match event with
    | .adopted delay =>
      q.scheduler = { p.scheduler with delay, counter := Scheduler.counterStart }
    | .executed counter delay =>
      counter = p.scheduler.counter ∧
        q.scheduler = { p.scheduler with delay, counter := nextCounter counter }
    | .idle | .failed _ =>
      q.engine.program = none ∧ q.scheduler = { p.scheduler with
        delay := p.scheduler.delay.atLeast (UInt64.ofNat quantum.millis) }
    | .lost => q.engine.program = p.engine.program ∧ q.scheduler = p.scheduler
  /-- After a fruitless cycle the delay has no end, or it takes as many milliseconds as the quantum.
  So does the sleep, unless a signal ends it. -/
  rests : ∀ event q, p.act .cycle = (.cycled event, q) → event.isFruitless = true →
    quantum.millis < UInt64.size →
    (∀ d, q.scheduler.delay.duration? = some d → quantum.millis ≤ d.millis) ∧
      ∀ running pending looks slices,
        q.scheduler.sleep running pending looks = (slices, some .elapsed) →
        quantum.millis ≤ (⟨Duration.total slices⟩ : Duration).millis ∧
          ((∃ ms, quantum = .ofMillis ms) → quantum.nanoseconds ≤ Duration.total slices)

theorem taken_of_cycle (h : p.act .cycle = (.cycled event, q)) :
    ∃ record, p.Taken ⟨.cycle, .cycled event, record⟩ q := by
  have htaken := p.taken .cycle
  rw [act_eq_recorded, Prod.mk.injEq] at h
  obtain ⟨hanswer, rfl⟩ := h
  refine ⟨(p.recorded .cycle).1.record, ?_⟩
  rw [← hanswer]
  exact htaken

/-- After a fruitless cycle there is no program, and the delay has a floor. -/
theorem Taken.of_fruitless {record : List (Activity I)}
    (taken : p.Taken ⟨.cycle, .cycled event, record⟩ q) (fruitless : event.isFruitless = true) :
    q.engine.program = none ∧ q.scheduler = { p.scheduler with
      delay := p.scheduler.delay.atLeast (UInt64.ofNat p.scheduler.quantum.millis) } := by
  cases taken with
  | adopted pending => cases fruitless
  | idle quiet empty => exact ⟨empty, p.scheduler.withIdleFloor_eq⟩
  | executed quiet found ran => cases fruitless
  | failed quiet found ran => exact ⟨rfl, p.scheduler.withIdleFloor_eq⟩
  | lostRun quiet found ran => cases fruitless

/-- The time that a sleep took is the delay, which has the quantum for its floor. -/
theorem Patient.of_quantum (quantum_eq : p.scheduler.quantum = quantum)
    (positive : 0 < quantum.nanoseconds) : Patient quantum p where
  quantum_eq := quantum_eq
  cycle := by
    intro event q h
    obtain ⟨record, taken⟩ := taken_of_cycle h
    cases taken with
    | adopted pending => rfl
    | idle quiet empty => exact quantum_eq ▸ ⟨empty, p.scheduler.withIdleFloor_eq⟩
    | executed quiet found ran => exact ⟨rfl, rfl⟩
    | failed quiet found ran => exact quantum_eq ▸ ⟨rfl, p.scheduler.withIdleFloor_eq⟩
    | lostRun quiet found ran => exact ⟨rfl, rfl⟩
  rests := by
    intro event q h fruitless fits
    obtain ⟨record, taken⟩ := taken_of_cycle h
    obtain ⟨-, hscheduler⟩ := taken.of_fruitless fruitless
    have hdelay (d : Duration) (hd : q.scheduler.delay.duration? = some d) :
        quantum.millis ≤ d.millis := by
      rw [hscheduler, quantum_eq] at hd
      exact Delay.millis_le_of_atLeast fits hd
    refine ⟨hdelay, fun running pending looks slices hsleep => ?_⟩
    have hsleeps := q.scheduler.sleeps (by rwa [taken.quantum_eq, quantum_eq]) running pending looks
    rw [hsleep] at hsleeps
    have hmillis := hdelay _ (hsleeps.elapsed rfl)
    refine ⟨hmillis, ?_⟩
    rintro ⟨ms, rfl⟩
    exact Duration.le_of_millis_le hmillis

end Player

/-! ### Fruitless cycles in a run -/

namespace Moment

/-- A cycle is carried out that is fruitless. -/
def isFruitless (m : Moment I) : Bool :=
  match m.event with
  | .cycle event => event.isFruitless
  | _ => false

/-- A request is adopted. -/
def adopts (m : Moment I) : Bool :=
  match m.event with
  | .cycle (.adopted _) => true
  | _ => false

/-- A whole quantum is slept. -/
def isWhole (quantum : Duration) (m : Moment I) : Bool :=
  match m.event with
  | .slept slice => slice = quantum
  | _ => false

theorem isWhole_le (quantum : Duration) (m : Moment I) :
    (m.isWhole quantum).toNat * quantum.nanoseconds ≤ m.nanoseconds := by
  obtain ⟨move, event, record⟩ := m
  cases event with
  | slept slice =>
    by_cases h : slice = quantum
    · subst h
      simp only [isWhole, decide_true, Bool.toNat_true, Nat.one_mul, nanoseconds, Nat.le_refl]
    · simp only [isWhole, h, decide_false, Bool.toNat_false, Nat.zero_mul, Nat.zero_le]
  | _ => simp only [isWhole, Bool.toNat_false, Nat.zero_mul, Nat.zero_le]

end Moment

theorem Scheduler.quantum_start (initialDelay : Delay) (ms : Nat) :
    (start initialDelay (.ofMillis ms)).quantum = .ofMillis (max ms 1) :=
  congrArg Duration.mk (Nat.mul_max_mul_right ms 1 1000000)

/-- What is left of a delay begins with a whole quantum. -/
def Duration.isWholeIn (quantum : Duration) : Option Duration → Bool
  | none => true
  | some left => quantum.nanoseconds ≤ left.nanoseconds

/-- The scheduler sleeps for a whole quantum before the next cycle if no signal is given. -/
def Phase.rests (quantum : Duration) : Phase → Bool
  | .lookingForStop left | .lookingForRequest left => quantum.isWholeIn left
  | .sleeping slice _ => slice = quantum
  | .ended => true
  | .deciding | .cycling => false

/-- The first slice of a delay is a whole quantum if the delay begins with one. -/
theorem Scheduler.eq_quantum_of_nextSlice {quantum length : Duration} {left rest : Option Duration}
    (h : nextSlice quantum left true false = .slice length rest)
    (whole : quantum.isWholeIn left = true) : length = quantum := by
  obtain ⟨-, hshort, rfl⟩ := slice_of_nextSlice h
  rcases full_of_nextSlice h with hfull | ⟨rfl, -⟩
  · exact hfull
  · have hlong : quantum.nanoseconds ≤ 0 + length.nanoseconds := of_decide_eq_true whole
    rw [Nat.zero_add] at hlong
    exact congrArg Duration.mk (Nat.le_antisymm hshort hlong)

theorem Duration.isWholeIn_atLeast {ms : Nat} (fits : ms < UInt64.size) (delay : Delay) :
    (ofMillis ms).isWholeIn (delay.atLeast (UInt64.ofNat (ofMillis ms).millis)).duration? = true := by
  cases h : (delay.atLeast (UInt64.ofNat (ofMillis ms).millis)).duration? with
  | none => rfl
  | some d =>
    refine decide_eq_true (le_of_millis_le (Delay.millis_le_of_atLeast ?_ h))
    rwa [millis_ofMillis]

namespace Worker

variable {w w' : Worker I} {m : Moment I} {quantum : Duration}

/-- A whole quantum is slept or a request is adopted before the next fruitless cycle. -/
def isAssured (quantum : Duration) (w : Worker I) : Bool :=
  w.engine.reset.isPending || w.phase.rests quantum

theorem isAssured_iff : w.isAssured quantum = true ↔
    w.engine.reset.isPending = true ∨ w.phase.rests quantum = true :=
  Bool.or_eq_true_iff ..

/-- Nothing is assured before a fruitless cycle. After it the scheduler shall sleep for a quantum at
least. -/
theorem Moved.of_fruitless {ms : Nat} (moved : Moved w m w')
    (quantum_eq : w.scheduler.quantum = .ofMillis ms) (fits : ms < UInt64.size)
    (fruitless : m.isFruitless = true) :
    w.isAssured (.ofMillis ms) = false ∧ w'.isAssured (.ofMillis ms) = true := by
  cases moved with
  | cycled here taken =>
    have hscheduler := (taken.of_fruitless fruitless).2
    have hafter := Duration.isWholeIn_atLeast fits w.scheduler.delay
    refine ⟨?_, ?_⟩
    · have hquiet : w.engine.reset.isPending = false := by
        cases taken with
        | adopted pending => cases fruitless
        | idle quiet empty => exact ResetSignal.not_isPending_of_take quiet
        | executed quiet found ran => cases fruitless
        | failed quiet found ran => exact ResetSignal.not_isPending_of_take quiet
        | lostRun quiet found ran => cases fruitless
      rw [isAssured, hquiet, here, Bool.false_or, Phase.rests]
    · rw [isAssured, Bool.or_eq_true]
      refine .inr ?_
      simp only [Phase.rests, hscheduler, player, quantum_eq, hafter]
  | lost here taken => cases fruitless
  | _ => cases fruitless

/-- A whole quantum that shall be slept is slept, unless a signal comes before. -/
theorem Moved.resting (moved : Moved w m w') (quantum_eq : w.scheduler.quantum = quantum)
    (positive : 0 < quantum.nanoseconds) (rests : w.phase.rests quantum = true) :
    m.isWhole quantum = true ∨ w'.isAssured quantum = true := by
  rw [isAssured_iff]
  cases moved with
  | submitted taken => exact .inr (.inr rests)
  | stop => exact .inr (.inr rests)
  | goes here running =>
    rw [here] at rests
    cases rests
  | ends here halted => exact .inr (.inr rfl)
  | cycled here taken =>
    rw [here] at rests
    cases rests
  | lost here taken => exact .inr (.inr rfl)
  | sleepsOn here running =>
    rw [here] at rests
    exact .inr (.inr rests)
  | stopped here halted => exact .inr (.inr rfl)
  | wakes here woken =>
    rw [here] at rests
    rcases Scheduler.wake_of_nextSlice woken with ⟨hpending, -⟩ | ⟨-, -, rfl⟩
    · exact .inr (.inl hpending)
    · exact absurd (of_decide_eq_true rests) (Nat.not_le_of_lt positive)
  | dozes here cut =>
    rw [here] at rests
    obtain ⟨hquiet, -⟩ := Scheduler.slice_of_nextSlice cut
    rw [hquiet, quantum_eq] at cut
    exact .inr (.inr (decide_eq_true (Scheduler.eq_quantum_of_nextSlice cut rests)))
  | slept here =>
    rw [here] at rests
    exact .inl rests
  | rests here => exact .inr (.inr rests)

/-- What is assured comes about, or it stays assured. -/
theorem Moved.assured (moved : Moved w m w') (quantum_eq : w.scheduler.quantum = quantum)
    (positive : 0 < quantum.nanoseconds) (assured : w.isAssured quantum = true) :
    m.adopts = true ∨ m.isWhole quantum = true ∨ w'.isAssured quantum = true := by
  rcases isAssured_iff.mp assured with hpending | hrests
  · cases hcycle : m.isCycle with
    | true =>
      obtain ⟨move, event, record⟩ := m
      cases event with
      | cycle event =>
        obtain ⟨delay, rfl⟩ := moved.adopts hpending rfl
        exact .inl rfl
      | _ => cases hcycle
    | false => exact .inr (.inr (isAssured_iff.mpr (.inl (moved.pending hcycle hpending))))
  · exact .inr (moved.resting quantum_eq positive hrests)

/-- What is assured is used up by nothing but what pays for a fruitless cycle. -/
theorem Moved.balance {ms : Nat} (moved : Moved w m w')
    (quantum_eq : w.scheduler.quantum = .ofMillis ms)
    (positive : 0 < (Duration.ofMillis ms).nanoseconds) (fits : ms < UInt64.size) :
    m.isFruitless.toNat + (w.isAssured (.ofMillis ms)).toNat ≤
      m.adopts.toNat + (m.isWhole (.ofMillis ms)).toNat + (w'.isAssured (.ofMillis ms)).toNat := by
  cases hm : m.isFruitless with
  | true =>
    obtain ⟨hbefore, hafter⟩ := moved.of_fruitless quantum_eq fits hm
    rw [hbefore, hafter]
    exact Nat.le_add_left _ _
  | false =>
    cases hbefore : w.isAssured (.ofMillis ms) with
    | true =>
      rcases moved.assured quantum_eq positive hbefore with h | h | h <;>
        rw [h] <;> simp only [Bool.toNat_true, Bool.toNat_false] <;> omega
    | false => exact Nat.zero_le _

/-- Every fruitless cycle but one was paid for. -/
theorem countP_isFruitless_le {ms : Nat} (paced : Paced (.ofMillis ms) w)
    (positive : 0 < (Duration.ofMillis ms).nanoseconds) (fits : ms < UInt64.size)
    (moves : List Move) :
    let moments := (w.history moves).1
    moments.countP (·.isFruitless) ≤
      1 + moments.countP (·.adopts) + moments.countP (·.isWhole (.ofMillis ms)) := by
  -- what is assured pays for the latest fruitless cycle until it comes about
  have h := w.history_induction (motive := fun so_far u => Paced (.ofMillis ms) u ∧
    so_far.countP (·.isFruitless) ≤ so_far.countP (·.adopts) +
      so_far.countP (·.isWhole (.ofMillis ms)) + (u.isAssured (.ofMillis ms)).toNat)
    ⟨paced, Nat.zero_le _⟩ (fun so_far u m u' hso_far moved => ?_) moves
  · have := (w.history moves).2.isAssured (.ofMillis ms) |>.toNat_le
    omega
  · obtain ⟨hpaced, hcount⟩ := hso_far
    refine ⟨(hpaced.step moved).1, ?_⟩
    have := moved.balance hpaced.quantum_eq positive fits
    simp only [countP_concat]
    omega

/-- The whole quanta that are slept take no more time than what is slept. -/
theorem countP_isWhole_mul_le (quantum : Duration) (moments : List (Moment I)) :
    moments.countP (·.isWhole quantum) * quantum.nanoseconds ≤ (slept moments).nanoseconds := by
  induction moments using List.reverseRecOn with
  | nil => exact Nat.le_of_eq (Nat.zero_mul _)
  | append_singleton moments m ih =>
    rw [countP_concat, slept_concat, Nat.add_mul]
    exact Nat.add_le_add ih (m.isWhole_le quantum)

/-- A scheduler without a program never spins. After every run of uploads and cycles, a fruitless
cycle leaves a delay that takes as long as the quantum. In every run of a scheduler that works by
itself, all fruitless cycles but one are paid for by requests that are adopted and by whole quanta
that are slept. -/
theorem never_spins (state : I.State) (sink : Sink) (initialDelay : Delay) (quantum : Duration)
    (ops : List Op) (ms : UInt64) (moves : List Move) :
    (((Player.start (I := I) state sink initialDelay quantum).run ops).2.Patient
      (Scheduler.start initialDelay quantum).quantum) ∧
    let worker := start (I := I) state sink initialDelay (.ofMillis ms.toNat)
    let (moments, last) := worker.history moves
    moments.map Moment.move = moves ∧ worker.run moves = (moments.map Moment.event, last) ∧
      moments.countP (·.isFruitless) ≤ 1 + moments.countP (·.adopts) +
        moments.countP (·.isWhole worker.scheduler.quantum) ∧
      moments.countP (·.isWhole worker.scheduler.quantum) ≤
        (slept moments).nanoseconds / worker.scheduler.quantum.nanoseconds := by
  have hpositive := Scheduler.quantum_start_pos initialDelay
  constructor
  · refine Player.Patient.of_quantum ?_ (hpositive quantum)
    rw [Player.run_eq_history]
    exact Player.history_induction (motive := fun _ p =>
        p.scheduler.quantum = (Scheduler.start initialDelay quantum).quantum) _ rfl
      (fun _ _ _ _ h taken => taken.quantum_eq.trans h) ops
  · intro worker
    have hquantum : worker.scheduler.quantum = .ofMillis (max ms.toNat 1) :=
      Scheduler.quantum_start initialDelay ms.toNat
    have hpaced : Paced (.ofMillis (max ms.toNat 1)) worker := ⟨hquantum, nofun⟩
    have hfits : max ms.toNat 1 < UInt64.size := Nat.max_lt.mpr ⟨ms.toNat_lt_size, by decide⟩
    refine ⟨worker.history_moves moves, worker.run_eq_moments moves, ?_, ?_⟩
    · rw [hquantum]
      exact countP_isFruitless_le hpaced (hquantum ▸ hpositive _) hfits moves
    · exact (Nat.le_div_iff_mul_le (hpositive _)).mpr (countP_isWhole_mul_le _ _)

end Worker

end PixelHost
