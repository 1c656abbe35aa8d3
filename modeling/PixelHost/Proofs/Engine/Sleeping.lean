import PixelHost.Proofs.Engine.Working

/-!
# Sleeping in slices

A sleep is cut into slices, and the signals are looked at before each of them. Whatever the signals
are at these looks, no slice is longer than the quantum, and together they never exceed the delay. A
sleep that nothing ends early lasts exactly for the delay. A signal ends it at the next look. A worker
sleeps in the same way, with the signals that it sees while other things happen.

## Main definitions

* `Duration.total` — the time that some slices take.
* `Scheduler.Slept` — what the looks of a sleep can come to.
* `Scheduler.Sleeps` — what a sleep is like.
* `Worker.looks` — the signals that a worker sees.

## Main results

* `Scheduler.slept` — every sleep is made of the listed looks.
* `Scheduler.Slept.left_eq`, `Scheduler.Slept.count_lt` — how much is slept, and in how many slices.
* `Scheduler.sleeps` — what every sleep is like.
* `Worker.sleep_of_run` — a worker sleeps as its scheduler does.
-/

namespace PixelHost

/-- The nanoseconds that some slices take. -/
def Duration.total : List Duration → Nat
  | [] => 0
  | slice :: rest => slice.nanoseconds + total rest

namespace Scheduler

/-! ### The looks of a sleep -/

/-- What a sleep comes to in which the signals are looked at no more than so many times, from a look
on: the slices and the end of the sleep, if it has one. -/
inductive Slept (quantum : Duration) (running pending : Nat → Bool) :
    Option Duration → Nat → Nat → List Duration → Option SleepOutcome → Prop
  /-- There is no further look. -/
  | unfinished {left look} : Slept quantum running pending left look 0 [] none
  /-- The scheduler is to stop. -/
  | stopped {left look n} (halted : running look = false) :
      Slept quantum running pending left look (n + 1) [] (some .stopped)
  /-- A request is pending. -/
  | preempted {left look n} (goes : running look = true) (asked : pending look = true) :
      Slept quantum running pending left look (n + 1) [] (some .preempted)
  /-- The time is up. -/
  | elapsed {look n} (goes : running look = true) (quiet : pending look = false) :
      Slept quantum running pending (some ⟨0⟩) look (n + 1) [] (some .elapsed)
  /-- A slice is slept. It is a whole quantum, or else it is all that was left. -/
  | slice {length rest look n slices outcome} (goes : running look = true)
      (quiet : pending look = false) (short : length.nanoseconds ≤ quantum.nanoseconds)
      (full : length = quantum ∨ rest = some ⟨0⟩ ∧ 0 < length.nanoseconds)
      (later : Slept quantum running pending rest (look + 1) n slices outcome) :
      Slept quantum running pending (rest.map fun r => ⟨r.nanoseconds + length.nanoseconds⟩) look
        (n + 1) (length :: slices) outcome

variable {quantum : Duration} {running pending : Nat → Bool} {left : Option Duration} {look n : Nat}
  {slices : List Duration} {outcome : Option SleepOutcome}

/-- A slice is a whole quantum, or else it is all that was left. -/
theorem full_of_nextSlice {length : Duration} {rest : Option Duration}
    (h : nextSlice quantum left true false = .slice length rest) :
    length = quantum ∨ rest = some ⟨0⟩ ∧ 0 < length.nanoseconds := by
  cases left with
  | none =>
    cases h
    exact .inl rfl
  | some left =>
    obtain ⟨left⟩ := left
    obtain ⟨quantum⟩ := quantum
    rw [nextSlice] at h
    by_cases hzero : left = 0
    · subst hzero
      cases h
    · simp only [Bool.not_true, Bool.false_eq_true, if_false, hzero, SleepStep.slice.injEq] at h
      obtain ⟨rfl, rfl⟩ := h
      by_cases hwhole : quantum ≤ left
      · exact .inl (congrArg Duration.mk (Nat.min_eq_right hwhole))
      · have hmin : min left quantum = left := Nat.min_eq_left (Nat.le_of_not_le hwhole)
        rw [hmin, Nat.sub_self]
        exact .inr ⟨rfl, Nat.pos_of_ne_zero hzero⟩

/-- Every sleep is made of the listed looks. -/
theorem slept (quantum : Duration) (running pending : Nat → Bool) (left : Option Duration)
    (look n : Nat) :
    Slept quantum running pending left look n
      (sleepFrom quantum running pending left look n).1
      (sleepFrom quantum running pending left look n).2 := by
  induction n generalizing left look with
  | zero => exact .unfinished
  | succ n ih =>
    rw [sleepFrom]
    cases hrunning : running look with
    | false => exact .stopped hrunning
    | true =>
      cases hnext : nextSlice quantum left true (pending look) with
      | wake outcome =>
        rcases wake_of_nextSlice hnext with ⟨hpending, rfl⟩ | ⟨hpending, rfl, rfl⟩
        · exact .preempted hrunning hpending
        · exact .elapsed hrunning hpending
      | slice length rest =>
        obtain ⟨hpending, hshort, rfl⟩ := slice_of_nextSlice hnext
        rw [hpending] at hnext
        exact .slice hrunning hpending hshort (full_of_nextSlice hnext) (ih rest (look + 1))

namespace Slept

/-! ### How much is slept -/

theorem short (h : Slept quantum running pending left look n slices outcome) :
    ∀ slice ∈ slices, slice.nanoseconds ≤ quantum.nanoseconds := by
  induction h with
  | slice goes quiet short full later ih => exact List.forall_mem_cons.mpr ⟨short, ih⟩
  | _ => exact fun _ hmem => nomatch hmem

/-- What is slept is taken from the delay, and nothing of it is left when the time is up. -/
theorem left_eq (h : Slept quantum running pending left look n slices outcome) :
    ∃ rest : Option Duration,
      left = rest.map (fun r => ⟨r.nanoseconds + Duration.total slices⟩) ∧
        (outcome = some .elapsed → rest = some ⟨0⟩) := by
  induction h with
  | @unfinished left look => exact ⟨left, by cases left <;> rfl, nofun⟩
  | @stopped left look n halted => exact ⟨left, by cases left <;> rfl, nofun⟩
  | @preempted left look n goes asked => exact ⟨left, by cases left <;> rfl, nofun⟩
  | elapsed goes quiet => exact ⟨some ⟨0⟩, rfl, fun _ => rfl⟩
  | @slice length rest look n slices outcome goes quiet short full later ih =>
    obtain ⟨last, rfl, hlast⟩ := ih
    refine ⟨last, ?_, hlast⟩
    rw [Option.map_map]
    congr 1
    funext r
    simp only [Function.comp_apply, Duration.total, Duration.mk.injEq]
    omega

/-- All slices but the last one are whole quanta, so there are not many. -/
theorem count_lt (h : Slept quantum running pending left look n slices outcome)
    (positive : 0 < quantum.nanoseconds) (d : Duration) (finite : left = some d) :
    slices.length * quantum.nanoseconds < d.nanoseconds + quantum.nanoseconds := by
  have hnone (d : Duration) : 0 * quantum.nanoseconds < d.nanoseconds + quantum.nanoseconds := by
    omega
  induction h generalizing d with
  | @slice length rest look n slices outcome goes quiet short full later ih =>
    obtain ⟨r, rfl, rfl⟩ := Option.map_eq_some_iff.mp finite
    have hrest := ih r rfl
    rw [List.length_cons, Nat.add_mul, Nat.one_mul]
    -- a slice that is no whole quantum is the last one
    rcases full with rfl | ⟨hlast, hpositive⟩
    · simp only
      omega
    · cases hlast
      have hzero : slices.length = 0 := by
        by_contra hsome
        have := Nat.le_mul_of_pos_left quantum.nanoseconds (Nat.pos_of_ne_zero hsome)
        simp only at hrest
        omega
      simp only [hzero]
      omega
  | _ => exact hnone d

/-! ### When it ends -/

theorem undisturbed (h : Slept quantum running pending left look n slices outcome) :
    ∀ i < slices.length, running (look + i) = true ∧ pending (look + i) = false := by
  induction h with
  | slice goes quiet short full later ih =>
    rintro (_ | i) hi
    · exact ⟨goes, quiet⟩
    · have := ih i (Nat.lt_of_succ_lt_succ hi)
      rwa [Nat.add_right_comm, Nat.add_assoc] at this
  | _ => exact fun _ hi => nomatch hi

/-- It ends unless there are no further looks. -/
theorem ended (h : Slept quantum running pending left look n slices outcome) :
    slices.length ≤ n ∧ (outcome = none ↔ slices.length = n) := by
  induction h with
  | unfinished => exact ⟨Nat.le_refl 0, iff_of_true rfl rfl⟩
  | slice goes quiet short full later ih =>
    exact ⟨Nat.succ_le_succ ih.1, ih.2.trans Nat.succ_inj.symm⟩
  | _ => exact ⟨Nat.zero_le _, iff_of_false nofun nofun⟩

/-- What ends it is found at the last look, and the order of the questions is fixed: whether to stop
comes first, then whether a request is pending, and only then whether the time is up. -/
theorem last_look {last : SleepOutcome}
    (h : Slept quantum running pending left look n slices (some last)) :
    last = .stopped ∧ running (look + slices.length) = false ∨
      running (look + slices.length) = true ∧
        (last = .preempted ∧ pending (look + slices.length) = true ∨
          last = .elapsed ∧ pending (look + slices.length) = false) := by
  generalize hended : some last = outcome at h
  induction h with
  | unfinished => cases hended
  | stopped halted =>
    cases hended
    exact .inl ⟨rfl, halted⟩
  | preempted goes asked =>
    cases hended
    exact .inr ⟨goes, .inl ⟨rfl, asked⟩⟩
  | elapsed goes quiet =>
    cases hended
    exact .inr ⟨goes, .inr ⟨rfl, quiet⟩⟩
  | slice goes quiet short full later ih =>
    have := ih hended
    rwa [Nat.add_right_comm, Nat.add_assoc] at this

/-- Where there is a further look, it ends there, in the way that the look shows. -/
theorem exists_outcome (h : Slept quantum running pending left look n slices outcome)
    (further : slices.length < n) : ∃ last, outcome = some last ∧
      Slept quantum running pending left look n slices (some last) := by
  cases outcome with
  | none => exact absurd (h.ended.2.mp rfl) (Nat.ne_of_lt further)
  | some last => exact ⟨last, rfl, h⟩

theorem further (h : Slept quantum running pending left look n slices outcome)
    (finished : outcome ≠ none) : slices.length < n :=
  Nat.lt_of_le_of_ne h.ended.1 fun hall => finished (h.ended.2.mpr hall)

theorem stopped_iff (h : Slept quantum running pending left look n slices outcome) :
    outcome = some .stopped ↔
      slices.length < n ∧ running (look + slices.length) = false := by
  constructor
  · rintro rfl
    refine ⟨h.further nofun, ?_⟩
    rcases h.last_look with ⟨-, hhalted⟩ | ⟨-, ⟨hlast, -⟩ | ⟨hlast, -⟩⟩
    · exact hhalted
    · cases hlast
    · cases hlast
  · rintro ⟨hfurther, hhalted⟩
    obtain ⟨last, rfl, h⟩ := h.exists_outcome hfurther
    rcases h.last_look with ⟨rfl, -⟩ | ⟨hgoes, -⟩
    · rfl
    · exact nomatch hhalted.symm.trans hgoes

theorem preempted_iff (h : Slept quantum running pending left look n slices outcome) :
    outcome = some .preempted ↔ slices.length < n ∧ running (look + slices.length) = true ∧
      pending (look + slices.length) = true := by
  constructor
  · rintro rfl
    refine ⟨h.further nofun, ?_⟩
    rcases h.last_look with ⟨hlast, -⟩ | ⟨hgoes, ⟨-, hasked⟩ | ⟨hlast, -⟩⟩
    · cases hlast
    · exact ⟨hgoes, hasked⟩
    · cases hlast
  · rintro ⟨hfurther, hgoes, hasked⟩
    obtain ⟨last, rfl, h⟩ := h.exists_outcome hfurther
    rcases h.last_look with ⟨-, hhalted⟩ | ⟨-, ⟨rfl, -⟩ | ⟨-, hquiet⟩⟩
    · exact nomatch hhalted.symm.trans hgoes
    · rfl
    · exact nomatch hquiet.symm.trans hasked

/-- A look that finds a signal is the last one. -/
theorem length_le (h : Slept quantum running pending left look n slices outcome) {i : Nat}
    (signal : running (look + i) = false ∨ pending (look + i) = true) : slices.length ≤ i := by
  by_contra hmore
  obtain ⟨hgoes, hquiet⟩ := h.undisturbed i (Nat.lt_of_not_le hmore)
  rcases signal with hhalted | hasked
  · exact nomatch hhalted.symm.trans hgoes
  · exact nomatch hquiet.symm.trans hasked

/-- A sleep with an end is over after so many looks, whatever they show. -/
theorem length_lt {d : Duration} (h : Slept quantum running pending (some d) look n slices outcome)
    (positive : 0 < quantum.nanoseconds)
    (enough : d.nanoseconds / quantum.nanoseconds + 2 ≤ n) : slices.length < n := by
  have hcount := h.count_lt positive d rfl
  have hd : d.nanoseconds < quantum.nanoseconds * (d.nanoseconds / quantum.nanoseconds + 1) :=
    Nat.lt_mul_div_succ _ positive
  refine Nat.lt_of_lt_of_le (Nat.lt_of_mul_lt_mul_right (a := quantum.nanoseconds) ?_) enough
  rw [Nat.mul_comm, Nat.add_mul, Nat.one_mul] at hd
  rw [Nat.add_mul]
  omega

/-- Without a signal, what ends a sleep is that the time is up. -/
theorem elapsed_of_quiet (h : Slept quantum running pending left look n slices outcome)
    (quiet : ∀ i < n, running (look + i) = true ∧ pending (look + i) = false)
    (further : slices.length < n) : outcome = some .elapsed := by
  obtain ⟨hgoes, hquiet⟩ := quiet slices.length further
  obtain ⟨last, rfl, h⟩ := h.exists_outcome further
  rcases h.last_look with ⟨-, hhalted⟩ | ⟨-, ⟨-, hasked⟩ | ⟨rfl, -⟩⟩
  · exact nomatch hhalted.symm.trans hgoes
  · exact nomatch hquiet.symm.trans hasked
  · rfl

end Slept

/-- One slice at most takes no more time than a quantum. -/
theorem total_le {slices : List Duration} (one : slices.length ≤ 1)
    (short : ∀ slice ∈ slices, slice.nanoseconds ≤ quantum.nanoseconds) :
    Duration.total slices ≤ quantum.nanoseconds := by
  match slices, one, short with
  | [], _, _ => exact Nat.zero_le _
  | [slice], _, short => exact short slice List.mem_cons_self

/-! ### Every sleep -/

/-- What a sleep is like in which the signals are looked at no more than so many times. `running` and
`pending` are the signals by the number of the look. -/
structure Sleeps (s : Scheduler) (running pending : Nat → Bool) (looks : Nat)
    (slices : List Duration) (outcome : Option SleepOutcome) : Prop where
  short : ∀ slice ∈ slices, slice.nanoseconds ≤ s.quantum.nanoseconds
  /-- What is left of the delay never goes below zero. -/
  within : ∀ d, s.delay.duration? = some d → Duration.total slices ≤ d.nanoseconds
  /-- If the delay has an end, so has the sleep. -/
  ends : ∀ d, s.delay.duration? = some d → d.nanoseconds / s.quantum.nanoseconds + 2 ≤ looks →
    outcome ≠ none
  /-- Without a signal it ends when the delay is over, and not before. -/
  whole : ∀ d, s.delay.duration? = some d → d.nanoseconds / s.quantum.nanoseconds + 2 ≤ looks →
    (∀ n < looks, running n = true ∧ pending n = false) →
    outcome = some .elapsed ∧ Duration.total slices = d.nanoseconds
  elapsed : outcome = some .elapsed → s.delay.duration? = some ⟨Duration.total slices⟩
  endless : s.delay = .forever → outcome ≠ some .elapsed
  /-- A look that finds a signal is the last one. Only the slice before it may have been slept since
  the signal was given. -/
  prompt : ∀ n, running n = false ∨ pending n = true → slices.length ≤ n ∧
    Duration.total (slices.drop (n - 1)) ≤ s.quantum.nanoseconds ∧ (n < looks → outcome ≠ none)
  stopped : outcome = some .stopped ↔ slices.length < looks ∧ running slices.length = false
  preempted : outcome = some .preempted ↔ slices.length < looks ∧ running slices.length = true ∧
    pending slices.length = true

/-- What every sleep is like. -/
theorem sleeps (s : Scheduler) (positive : 0 < s.quantum.nanoseconds) (running pending : Nat → Bool)
    (looks : Nat) :
    s.Sleeps running pending looks (s.sleep running pending looks).1
      (s.sleep running pending looks).2 := by
  have h : Slept s.quantum running pending s.delay.duration? 0 looks
      (s.sleep running pending looks).1 (s.sleep running pending looks).2 := slept _ _ _ _ _ _
  generalize (s.sleep running pending looks).1 = slices at h ⊢
  generalize (s.sleep running pending looks).2 = outcome at h ⊢
  obtain ⟨rest, hleft, hover⟩ := h.left_eq
  have helapsed (hended : outcome = some .elapsed) :
      s.delay.duration? = some ⟨Duration.total slices⟩ := by
    rw [hleft, hover hended, Option.map_some, Nat.zero_add]
  refine ⟨h.short, ?within, ?ends, ?whole, helapsed, ?endless, ?prompt, ?stopped, ?preempted⟩
  case within =>
    intro d hd
    obtain ⟨r, -, rfl⟩ := Option.map_eq_some_iff.mp (hleft.symm.trans hd)
    exact Nat.le_add_left _ _
  case ends =>
    intro d hd enough hnone
    rw [hd] at h
    exact Nat.ne_of_lt (h.length_lt positive enough) (h.ended.2.mp hnone)
  case whole =>
    intro d hd enough quiet
    rw [hd] at h
    have hended := h.elapsed_of_quiet (by simpa only [Nat.zero_add] using quiet)
      (h.length_lt positive enough)
    have htotal := Option.some.inj ((helapsed hended).symm.trans hd)
    exact ⟨hended, congrArg Duration.nanoseconds htotal⟩
  case endless =>
    intro hforever hended
    have hduration := helapsed hended
    rw [hforever] at hduration
    cases hduration
  case prompt =>
    intro n signal
    have hlength : slices.length ≤ n := h.length_le (by rwa [Nat.zero_add])
    refine ⟨hlength, total_le ?_ fun slice hmem => h.short slice (List.mem_of_mem_drop hmem), ?_⟩
    · rw [List.length_drop]
      omega
    · intro further hnone
      have := h.ended.2.mp hnone
      omega
  case stopped => simpa only [Nat.zero_add] using h.stopped_iff
  case preempted => simpa only [Nat.zero_add] using h.preempted_iff

/-! ### Sleeps that see some signals -/

theorem sleepFrom_succ (quantum : Duration) (running pending : Nat → Bool)
    (left : Option Duration) (look n : Nat) :
    sleepFrom quantum running pending left (look + 1) n =
      sleepFrom quantum (fun i => running (i + 1)) (fun i => pending (i + 1)) left look n := by
  induction n generalizing left look with
  | zero => rfl
  | succ n ih => simp only [sleepFrom, ih]

/-- A sleep that sees these signals, one look after the other, is made of these slices and ends in
this way. -/
def SleepsSeeing (quantum : Duration) (stops requests : List Bool) (left : Option Duration)
    (slices : List Duration) (outcome : SleepOutcome) : Prop :=
  sleepFrom quantum (fun n => stops.getD n true) (fun n => requests.getD n false) left 0
    (slices.length + 1) = (slices, some outcome)

namespace SleepsSeeing

variable {quantum length : Duration} {stops requests : List Bool} {left rest : Option Duration}
  {slices : List Duration} {outcome : SleepOutcome} {pending : Bool}

theorem stopped : SleepsSeeing quantum (false :: stops) requests left [] .stopped := rfl

theorem wakes (woken : nextSlice quantum left true pending = .wake outcome) :
    SleepsSeeing quantum (true :: stops) (pending :: requests) left [] outcome := by
  simp only [SleepsSeeing, sleepFrom, List.getD_cons_zero, woken]

theorem slice (cut : nextSlice quantum left true pending = .slice length rest)
    (later : SleepsSeeing quantum stops requests rest slices outcome) :
    SleepsSeeing quantum (true :: stops) (pending :: requests) left (length :: slices) outcome := by
  rw [SleepsSeeing] at later ⊢
  rw [List.length_cons, sleepFrom]
  simp only [List.getD_cons_zero, cut, sleepFrom_succ, List.getD_cons_succ]
  rw [later]

end SleepsSeeing

end Scheduler

/-! ### The sleep of a worker -/

namespace Worker

/-- The stop signal when it is looked at, and whether a request is pending when one is looked for. -/
def looks (w : Worker I) : List Move → List Bool × List Bool
  | [] => ([], [])
  | m :: rest =>
    let (stops, requests) := looks (w.move m).2 rest
    match m, w.phase with
    | .work, .lookingForStop _ => (w.running :: stops, requests)
    | .work, .lookingForRequest _ => (stops, w.engine.reset.isPending :: requests)
    | _, _ => (stops, requests)

/-- The slices that are slept. -/
def slices (events : List Event) : List Duration :=
  events.filterMap fun event =>
    match event with
    | .slept slice => some slice
    | _ => none

/-- A sleeping worker goes on as the scheduler would with the signals that it sees. -/
def SleepsTo (w : Worker I) (moves : List Move) (events : List Event) (outcome : SleepOutcome) :
    Prop :=
  let (stops, requests) := w.looks moves
  match w.phase with
  | .lookingForStop left =>
    Scheduler.SleepsSeeing w.scheduler.quantum stops requests left (slices events) outcome
  | .lookingForRequest left =>
    Scheduler.SleepsSeeing w.scheduler.quantum (true :: stops) requests left (slices events) outcome
  | .sleeping slice rest => ∃ later, slices events = slice :: later ∧
    Scheduler.SleepsSeeing w.scheduler.quantum stops requests rest later outcome
  | .deciding | .cycling | .ended => True

variable {w w' last : Worker I} {moves : List Move} {m : Moment I} {events : List Event}
  {outcome : SleepOutcome}

/-- The last moment of a sleep. -/
theorem Moved.sleepsTo_woke (moved : Moved w m w') (woke : m.event = .woke outcome) :
    w.SleepsTo [m.move] [] outcome := by
  cases moved with
  | stopped here halted =>
    cases woke
    simp only [SleepsTo, looks, here, halted]
    exact .stopped
  | wakes here woken =>
    cases woke
    simp only [SleepsTo, looks, here]
    exact .wakes woken
  | _ => cases woke

/-- Any other moment of it. -/
theorem Moved.sleepsTo (moved : Moved w m w') (asleep : ∀ earlier, m.event ≠ .woke earlier)
    (later : w'.SleepsTo moves events outcome) :
    w.SleepsTo (m.move :: moves) (m.event :: events) outcome := by
  have hmove := moved.move_eq
  cases moved with
  | submitted taken =>
    simp only [SleepsTo, looks, hmove] at later ⊢
    exact later
  | stop =>
    simp only [SleepsTo, looks, hmove] at later ⊢
    exact later
  | goes here running => simp only [SleepsTo, here]
  | ends here halted => simp only [SleepsTo, here]
  | cycled here taken => simp only [SleepsTo, here]
  | lost here taken => simp only [SleepsTo, here]
  | sleepsOn here running =>
    simp only [SleepsTo, looks, hmove, here, running] at later ⊢
    exact later
  | stopped here halted => exact absurd rfl (asleep _)
  | wakes here woken => exact absurd rfl (asleep _)
  | dozes here cut =>
    simp only [SleepsTo, looks, hmove, here] at later ⊢
    obtain ⟨later, hslices, hlater⟩ := later
    change Scheduler.SleepsSeeing _ _ _ _ (slices events) _
    rw [hslices]
    exact .slice cut hlater
  | slept here =>
    simp only [SleepsTo, looks, hmove, here] at later ⊢
    exact ⟨_, rfl, later⟩
  | rests here => simp only [SleepsTo, here]

theorem length_run (w : Worker I) (moves : List Move) : (w.run moves).1.length = moves.length := by
  have hmoves := congrArg List.length (w.history_moves moves)
  rw [List.length_map] at hmoves
  rw [run_eq_moments, List.length_map, hmoves]

/-- By induction on the moves, from one look to the next. -/
theorem sleepsTo_of_run (run : w.run moves = (events ++ [.woke outcome], last))
    (asleep : ∀ event ∈ events, ∀ earlier, event ≠ .woke earlier) :
    w.SleepsTo moves events outcome := by
  induction moves generalizing w events with
  | nil =>
    rw [Worker.run, Prod.mk.injEq] at run
    exact absurd run.1.symm (List.append_ne_nil_of_right_ne_nil _ (List.cons_ne_nil _ _))
  | cons m rest ih =>
    have moved := w.moved m
    have hmove : w.move m = ((w.recorded m).1.event, (w.recorded m).2) := moved.move_eq
    simp only [Worker.run, hmove, Prod.mk.injEq] at run
    obtain ⟨hevents, hlast⟩ := run
    cases events with
    | nil =>
      obtain ⟨hwoke, hnone⟩ := List.cons.inj hevents
      have hrest : rest.length = 0 := by rw [← length_run, hnone, List.length_nil]
      rw [List.eq_nil_of_length_eq_zero hrest]
      exact moved.sleepsTo_woke hwoke
    | cons event events =>
      obtain ⟨rfl, hlater⟩ := List.cons.inj hevents
      exact moved.sleepsTo (asleep _ List.mem_cons_self)
        (ih (Prod.ext hlater hlast) fun event h => asleep event (List.mem_cons_of_mem _ h))

/-- After a cycle a worker begins to sleep, or it has ended if the cycle was lost. -/
theorem phase_of_cycle {event : CycleEvent} (cycle : w.step = (.cycle event, w')) :
    w'.phase = .after event w'.scheduler.delay.duration? := by
  have moved := w.moved .work
  have hmove : w.step = ((w.recorded .work).1.event, (w.recorded .work).2) := moved.move_eq
  rw [hmove, Prod.mk.injEq] at cycle
  obtain ⟨hevent, rfl⟩ := cycle
  generalize (w.recorded .work).1 = m, (w.recorded .work).2 = w' at moved hevent
  cases moved with
  | cycled here taken goesOn =>
    cases hevent
    exact (after_of_ne_lost goesOn _).symm
  | lost here taken =>
    cases hevent
    rfl
  | _ => cases hevent

/-- A worker that begins to sleep does so as its scheduler would with the signals that it sees. -/
theorem sleep_of_run (begins : w.phase = .lookingForStop w.scheduler.delay.duration?)
    (run : w.run moves = (events ++ [.woke outcome], last))
    (asleep : ∀ event ∈ events, ∀ earlier, event ≠ .woke earlier) :
    w.scheduler.sleep (fun n => (w.looks moves).1.getD n true)
      (fun n => (w.looks moves).2.getD n false) ((slices events).length + 1) =
        (slices events, some outcome) := by
  have hsleeps := sleepsTo_of_run run asleep
  simp only [SleepsTo, begins] at hsleeps
  exact hsleeps

end Worker

end PixelHost
