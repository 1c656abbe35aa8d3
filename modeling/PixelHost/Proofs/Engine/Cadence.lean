import PixelHost.Proofs.Engine.HandOver
import PixelHost.Proofs.Engine.Working

/-!
# The cadence of a working scheduler

A delay begins when a request is adopted and whenever the program is invoked with success. Until the
program is invoked next the scheduler sleeps for this delay, neither more nor less, however the sleep
is cut into slices and whatever arrives meanwhile that does not take the place of the program. A
sleep that a request ends early leads to the adoption of a request.

The program that is invoked is the one of the latest upload that was published. So the time between
two moments belongs to one program if no upload is published in between.

## Main definitions

* `Moment.begun?`, `Moment.invokes` — a delay begins, the program is invoked.
* `slept` — the time that is slept in some moments.
* `Punctual` — what the cadence of a run is like.

## Main results

* `Worker.punctual_of_history` — the cadence of every run.
-/

namespace PixelHost

variable {I : Interpreter}

/-! ### What the moments of a run are about -/

namespace Moment

/-- The delay that an upload asks for when it is published. -/
def request? (m : Moment I) : Option Delay :=
  match m.event with
  | .submitted _ (.ok delay) => some delay
  | _ => none

/-- A cycle is carried out. -/
def isCycle (m : Moment I) : Bool :=
  match m.event with
  | .cycle _ => true
  | _ => false

/-- The delay that begins: that of a request that is adopted, or the one that the program asks
for. -/
def begun? (m : Moment I) : Option Delay :=
  match m.event with
  | .cycle (.adopted delay) | .cycle (.executed _ delay) => some delay
  | _ => none

/-- The program is invoked. -/
def invokes (m : Moment I) : Bool :=
  match m.event with
  | .cycle (.executed _ _) | .cycle (.failed _) | .cycle .lost => true
  | _ => false

/-- The scheduler does something, rather than something from outside. -/
def isOwn (m : Moment I) : Bool :=
  match m.move with
  | .work => true
  | _ => false

/-- The nanoseconds that are slept in a moment. -/
def nanoseconds (m : Moment I) : Nat :=
  match m.event with
  | .slept slice => slice.nanoseconds
  | _ => 0

/-- The moment in which an upload is published. -/
def published (source : String) (chunk : I.Chunk) (outcome : Outcome I.Memo) : Moment I where
  move := .submit source
  event := .submitted source (.ok outcome.delay)
  record := [.compile source (.ok chunk), .invoke ⟨chunk, 0, none, .ok outcome⟩]

end Moment

/-- The time that is slept in some moments. -/
def slept (moments : List (Moment I)) : Duration :=
  ⟨moments.foldl (fun n m => n + m.nanoseconds) 0⟩

theorem slept_concat (moments : List (Moment I)) (m : Moment I) :
    (slept (moments ++ [m])).nanoseconds = (slept moments).nanoseconds + m.nanoseconds := by
  simp only [slept, List.foldl_append, List.foldl_cons, List.foldl_nil]

/-- The latest upload that was published before a moment, and what is known of all moments since
then. -/
def Latest (known : Moment I → Prop) (before : List (Moment I)) (source : String) (chunk : I.Chunk)
    (outcome : Outcome I.Memo) : Prop :=
  ∃ earlier later, before = earlier ++ .published source chunk outcome :: later ∧
    ∀ m ∈ later, m.request? = none ∧ known m

/-- What the cadence of a run is like. -/
structure Punctual (moments : List (Moment I)) : Prop where
  /-- What a cycle adopts is the delay of the latest published upload, at the first cycle after
  it. -/
  adopted : ∀ before m after delay, moments = before ++ m :: after →
    m.event = .cycle (.adopted delay) → ∃ source chunk outcome,
      Latest (·.isCycle = false) before source chunk outcome ∧ outcome.delay = delay
  /-- The program that a cycle invokes is that of the latest published upload. -/
  invoked : ∀ before m after, moments = before ++ m :: after → m.invokes = true →
    ∃ call source outcome, m.record = [.invoke call] ∧
      Latest (fun _ => True) before source call.chunk outcome
  /-- From the beginning of a delay to the next invocation of the same program, the time that is
  slept is the delay. -/
  waited : ∀ before first between second after delay,
    moments = before ++ first :: (between ++ second :: after) → first.begun? = some delay →
    second.invokes = true → (∀ m ∈ between, m.request? = none ∧ m.invokes = false) →
    delay.duration? = some (slept between)
  /-- The first cycle after a sleep that a request ended adopts a request. -/
  preempted : ∀ before woke between next after event,
    moments = before ++ woke :: (between ++ next :: after) → woke.event = .woke .preempted →
    next.event = .cycle event → (∀ m ∈ between, m.isCycle = false) → ∃ delay, event = .adopted delay
  /-- Such a cycle comes with the second step that the scheduler takes by itself, unless it is told
  to stop. -/
  resumed : ∀ before woke after, moments = before ++ woke :: after →
    woke.event = .woke .preempted → (∀ m ∈ moments, m.move ≠ .stop) → 2 ≤ after.countP (·.isOwn) →
    ∃ m ∈ after, m.isCycle = true

/-! ### The latest published upload -/

section

variable {known : Moment I → Prop} {before : List (Moment I)} {m : Moment I} {source : String}
  {chunk : I.Chunk} {outcome : Outcome I.Memo}

theorem latest_published (known : Moment I → Prop) (before : List (Moment I)) (source : String)
    (chunk : I.Chunk) (outcome : Outcome I.Memo) :
    Latest known (before ++ [.published source chunk outcome]) source chunk outcome :=
  ⟨before, [], rfl, fun _ h => nomatch h⟩

theorem Latest.concat (h : Latest known before source chunk outcome) (hm : m.request? = none)
    (hknown : known m) : Latest known (before ++ [m]) source chunk outcome := by
  obtain ⟨earlier, later, rfl, hlater⟩ := h
  refine ⟨earlier, later ++ [m], ?_, ?_⟩
  · rw [List.append_assoc, List.cons_append]
  · intro x hx
    rcases List.mem_append.mp hx with hx | hx
    · exact hlater x hx
    · rw [List.mem_singleton.mp hx]
      exact ⟨hm, hknown⟩

end

/-- What is pending and what is in the slot come from the latest published upload. -/
structure Traced (moments : List (Moment I)) (w : Worker I) : Prop where
  request : ∀ delay, w.engine.reset.take.1 = some delay → ∃ source chunk outcome,
    Latest (·.isCycle = false) moments source chunk outcome ∧ outcome.delay = delay
  program : ∀ p, w.engine.program = some p → ∃ outcome,
    Latest (fun _ => True) moments p.script.source p.script.chunk outcome

namespace Traced

variable {moments : List (Moment I)} {w w' : Worker I} {m : Moment I}

theorem start (state : I.State) (sink : Sink) (initialDelay : Delay) (quantum : Duration) :
    Traced [] (Worker.start (I := I) state sink initialDelay quantum) where
  request := fun _ h => nomatch h
  program := fun _ h => nomatch h

/-- A moment in which neither the request nor the program changes. -/
theorem quiet (h : Traced moments w) (none_published : m.request? = none) (no_cycle : m.isCycle = false)
    (same_request : w'.engine.reset = w.engine.reset)
    (same_program : w'.engine.program = w.engine.program) : Traced (moments ++ [m]) w' where
  request := by
    intro delay hdelay
    rw [same_request] at hdelay
    obtain ⟨source, chunk, outcome, hlatest, heq⟩ := h.request delay hdelay
    exact ⟨source, chunk, outcome, hlatest.concat none_published no_cycle, heq⟩
  program := by
    intro p hp
    rw [same_program] at hp
    obtain ⟨outcome, hlatest⟩ := h.program p hp
    exact ⟨outcome, hlatest.concat none_published trivial⟩

/-- After a cycle no request is pending, and the script in the slot is still the same. -/
theorem cycle (h : Traced moments w) (none_published : m.request? = none)
    (taken : w'.engine.reset.take.1 = none)
    (same_script : ∀ p, w'.engine.program = some p → ∃ before, w.engine.program = some before ∧
      p.script = before.script) : Traced (moments ++ [m]) w' where
  request := fun delay hdelay => nomatch taken.symm.trans hdelay
  program := by
    intro p hp
    obtain ⟨before, hbefore, hscript⟩ := same_script p hp
    obtain ⟨outcome, hlatest⟩ := h.program before hbefore
    rw [hscript]
    exact ⟨outcome, hlatest.concat none_published trivial⟩

/-- Every moment keeps track. -/
theorem step (fits : I.DelaysFit) (h : Traced moments w) (moved : w.Moved m w') :
    Traced (moments ++ [m]) w' := by
  cases moved with
  | @submitted source result record p taken =>
    cases taken with
    | unfit compiled => exact h.quiet rfl rfl rfl rfl
    | rejected compiled ran => exact h.quiet rfl rfl rfl rfl
    | @accepted _ chunk outcome state state' compiled ran =>
      have hfits : outcome.delay.Fits := fits _ _ _ _ _ _ (congrArg Prod.fst ran)
      refine ⟨fun delay hdelay => ?_, fun p hp => ?_⟩
      · have hraised : (w.engine.reset.raise outcome.delay).take.1 = some delay := hdelay
        rw [ResetSignal.take_raise _ hfits] at hraised
        exact ⟨source, chunk, outcome, latest_published _ _ source chunk outcome,
          Option.some.inj hraised⟩
      · obtain ⟨rfl, -⟩ := Player.kept_eq_some hp
        exact ⟨outcome, latest_published _ _ source chunk outcome⟩
    | lostUpload loses => exact h.quiet rfl rfl rfl rfl
  | cycled here taken goesOn =>
    cases taken with
    | adopted pending =>
      exact h.cycle rfl w.engine.reset.take_take fun p hp => ⟨p, hp, rfl⟩
    | idle quiet empty =>
      exact h.cycle rfl w.engine.reset.take_take fun p hp => ⟨p, hp, rfl⟩
    | executed quiet found ran =>
      refine h.cycle rfl w.engine.reset.take_take fun p hp => ?_
      obtain ⟨rfl, -⟩ := Player.kept_eq_some hp
      exact ⟨_, found, rfl⟩
    | failed quiet found ran =>
      exact h.cycle rfl w.engine.reset.take_take fun p hp => nomatch hp
    | lostRun quiet found ran => exact absurd rfl goesOn
  | lost here taken =>
    cases taken with
    | lostRun quiet found ran =>
      exact h.cycle rfl w.engine.reset.take_take fun p hp => ⟨p, hp, rfl⟩
  | stop => exact h.quiet rfl rfl rfl rfl
  | goes here running => exact h.quiet rfl rfl rfl rfl
  | ends here halted => exact h.quiet rfl rfl rfl rfl
  | sleepsOn here running => exact h.quiet rfl rfl rfl rfl
  | stopped here halted => exact h.quiet rfl rfl rfl rfl
  | wakes here woken => exact h.quiet rfl rfl rfl rfl
  | dozes here cut => exact h.quiet rfl rfl rfl rfl
  | slept here => exact h.quiet rfl rfl rfl rfl
  | rests here => exact h.quiet rfl rfl rfl rfl

end Traced

/-! ### Waiting -/

/-- The nanoseconds that are still to be slept before the next cycle; `none` if there is no end. -/
def Phase.left : Phase → Option Nat
  | .lookingForStop left | .lookingForRequest left => left.map (·.nanoseconds)
  | .sleeping slice rest => rest.map (·.nanoseconds + slice.nanoseconds)
  | .deciding | .cycling | .ended => some 0

/-- A scheduler that waits for a delay since it has slept for some nanoseconds: no request is pending,
and what was slept and what is left make up the delay, unless there is nothing to wait for. -/
structure Waits (delay : Delay) (nanoseconds : Nat) (w : Worker I) : Prop where
  quiet : w.engine.reset.isPending = false
  left : w.engine.program = none ∨ w.phase = .ended ∨
    w.phase.left.map (· + nanoseconds) = delay.duration?.map (·.nanoseconds)

namespace Waits

variable {w w' : Worker I} {m : Moment I} {delay : Delay} {n : Nat}

/-- A delay begins with nothing slept. -/
theorem of_begun (moved : w.Moved m w') (begun : m.begun? = some delay) : Waits delay 0 w' := by
  cases moved with
  | cycled here taken =>
    cases taken with
    | adopted pending =>
      cases begun
      exact ⟨w.engine.reset.isPending_take, .inr (.inr (Option.map_map _ _ _))⟩
    | idle quiet empty => cases begun
    | executed quiet found ran =>
      cases begun
      exact ⟨w.engine.reset.isPending_take, .inr (.inr (Option.map_map _ _ _))⟩
    | failed quiet found ran => cases begun
    | lostRun quiet found ran => cases begun
  | _ => cases begun

/-- No moment but the next invocation or another program ends the wait. -/
theorem step (h : Waits delay n w) (none_published : m.request? = none)
    (not_invoked : m.invokes = false) (moved : w.Moved m w') :
    Waits delay (n + m.nanoseconds) w' := by
  cases moved with
  | submitted taken =>
    cases taken with
    | unfit compiled => exact ⟨h.quiet, h.left⟩
    | rejected compiled ran => exact ⟨h.quiet, h.left⟩
    | accepted compiled ran => cases none_published
    | lostUpload loses => exact ⟨h.quiet, h.left⟩
  | cycled here taken =>
    cases taken with
    | adopted pending =>
      have hpending := ResetSignal.isPending_of_take pending
      exact nomatch h.quiet.symm.trans hpending
    | idle quiet empty => exact ⟨w.engine.reset.isPending_take, .inl empty⟩
    | executed quiet found ran => cases not_invoked
    | failed quiet found ran => cases not_invoked
    | lostRun quiet found ran => cases not_invoked
  | lost here taken => cases not_invoked
  | stop => exact ⟨h.quiet, h.left⟩
  | goes here running =>
    have hleft := h.left
    rw [here] at hleft
    exact ⟨h.quiet, hleft.imp_right fun h => .inr (h.resolve_left nofun)⟩
  | ends here halted => exact ⟨h.quiet, .inr (.inl rfl)⟩
  | sleepsOn here running =>
    have hleft := h.left
    rw [here] at hleft
    exact ⟨h.quiet, hleft.imp_right fun h => .inr (h.resolve_left nofun)⟩
  | stopped here halted => exact ⟨h.quiet, .inr (.inl rfl)⟩
  | wakes here woken =>
    have hleft := h.left
    rw [here] at hleft
    refine ⟨h.quiet, hleft.imp_right fun h' => .inr ?_⟩
    rcases Scheduler.wake_of_nextSlice woken with ⟨hpending, -⟩ | ⟨-, -, rfl⟩
    · exact nomatch h.quiet.symm.trans hpending
    · exact h'.resolve_left nofun
  | dozes here cut =>
    have hleft := h.left
    rw [here] at hleft
    obtain ⟨-, -, rfl⟩ := Scheduler.slice_of_nextSlice cut
    refine ⟨h.quiet, hleft.imp_right fun h => .inr ?_⟩
    have hsum := h.resolve_left nofun
    simpa only [Phase.left, Option.map_map, Function.comp_def, Moment.nanoseconds, Nat.add_zero]
      using hsum
  | slept here =>
    have hleft := h.left
    rw [here] at hleft
    refine ⟨h.quiet, hleft.imp_right fun h => .inr ?_⟩
    have hsum := h.resolve_left nofun
    simpa only [Phase.left, Option.map_map, Function.comp_def, Moment.nanoseconds, Nat.add_assoc,
      Nat.add_comm n] using hsum
  | rests here => exact ⟨h.quiet, .inr (.inl here)⟩

/-- When the program is invoked next, the whole delay was slept. -/
theorem of_invokes (h : Waits delay n w) (moved : w.Moved m w') (invoked : m.invokes = true) :
    delay.duration? = some ⟨n⟩ := by
  have hwaited (here : w.phase = .cycling) (running : w.engine.program ≠ none) :
      delay.duration? = some ⟨n⟩ := by
    have hleft := h.left
    rw [here] at hleft
    have hsum := (hleft.resolve_left running).resolve_left nofun
    cases hduration : delay.duration? with
    | none =>
      rw [hduration] at hsum
      cases hsum
    | some d =>
      rw [hduration] at hsum
      simp only [Phase.left, Option.map_some, Nat.zero_add, Option.some.injEq] at hsum
      rw [hsum]
  cases moved with
  | cycled here taken goesOn =>
    cases taken with
    | adopted pending => cases invoked
    | idle quiet empty => cases invoked
    | executed quiet found ran => exact hwaited here fun hnone => nomatch hnone.symm.trans found
    | failed quiet found ran => exact hwaited here fun hnone => nomatch hnone.symm.trans found
    | lostRun quiet found ran => exact absurd rfl goesOn
  | lost here taken =>
    cases taken with
    | lostRun quiet found ran => exact hwaited here fun hnone => nomatch hnone.symm.trans found
  | submitted taken => cases invoked
  | _ => cases invoked

end Waits

/-! ### Waking up for a request -/

namespace Worker.Moved

variable {w w' : Worker I} {m : Moment I}

/-- A sleep that a request ends leaves the request pending. -/
theorem of_preempted (moved : w.Moved m w') (woke : m.event = .woke .preempted) :
    w'.engine.reset.isPending = true ∧ w'.phase = .deciding := by
  cases moved with
  | wakes here woken =>
    cases woke
    rcases Scheduler.wake_of_nextSlice woken with ⟨hpending, -⟩ | ⟨-, houtcome, -⟩
    · exact ⟨hpending, rfl⟩
    · cases houtcome
  | _ => cases woke

/-- Only a cycle takes a request away. -/
theorem pending (moved : w.Moved m w') (no_cycle : m.isCycle = false)
    (pending : w.engine.reset.isPending = true) : w'.engine.reset.isPending = true := by
  cases moved with
  | submitted taken =>
    cases taken with
    | unfit compiled => exact pending
    | rejected compiled ran => exact pending
    | accepted compiled ran => exact w.engine.reset.isPending_raise _
    | lostUpload loses => exact pending
  | cycled here taken => cases no_cycle
  | lost here taken => cases no_cycle
  | _ => exact pending

/-- A cycle that finds a request adopts it. -/
theorem adopts (moved : w.Moved m w') (pending : w.engine.reset.isPending = true)
    {event : CycleEvent} (cycle : m.event = .cycle event) : ∃ delay, event = .adopted delay := by
  have hfound (quiet : w.engine.reset.take.1 = none) : False :=
    nomatch (ResetSignal.not_isPending_of_take quiet).symm.trans pending
  cases moved with
  | cycled here taken =>
    cases cycle
    cases taken with
    | adopted pending => exact ⟨_, rfl⟩
    | idle quiet empty => exact (hfound quiet).elim
    | executed quiet found ran => exact (hfound quiet).elim
    | failed quiet found ran => exact (hfound quiet).elim
    | lostRun quiet found ran => exact (hfound quiet).elim
  | lost here taken =>
    cases taken with
    | lostRun quiet found ran => exact (hfound quiet).elim
  | _ => cases cycle

/-- Only the request to stop stops the worker. -/
theorem running (moved : w.Moved m w') (unstopped : m.move ≠ .stop) : w'.running = w.running := by
  cases moved with
  | stop => exact absurd rfl unstopped
  | _ => rfl

end Worker.Moved

/-- A worker that is between two cycles and shall go on carries out a cycle soon. By induction on the
moments: only its own bring it further, and nothing but them is needed. -/
theorem Worker.exists_cycle {w last : Worker I} {moves : List Move} {after : List (Moment I)}
    (run : w.history moves = (after, last)) (running : w.running = true)
    (unstopped : ∀ m ∈ after, m.move ≠ .stop)
    (due : w.phase = .cycling ∧ 1 ≤ after.countP (·.isOwn) ∨
      w.phase = .deciding ∧ 2 ≤ after.countP (·.isOwn)) :
    ∃ m ∈ after, m.isCycle = true := by
  induction after generalizing w moves with
  | nil =>
    rw [List.countP_nil] at due
    omega
  | cons m after ih =>
    obtain ⟨w', moves', moved, run'⟩ := history_cons run
    have hm : m.move ≠ .stop := unstopped m List.mem_cons_self
    have hafter : ∀ x ∈ after, x.move ≠ .stop := fun x hx => unstopped x (List.mem_cons_of_mem m hx)
    have hrunning : w'.running = true := (moved.running hm).trans running
    have hlater (due' : w'.phase = .cycling ∧ 1 ≤ after.countP (·.isOwn) ∨
        w'.phase = .deciding ∧ 2 ≤ after.countP (·.isOwn)) :
        ∃ x ∈ m :: after, x.isCycle = true := by
      obtain ⟨x, hx, hcycle⟩ := ih run' hrunning hafter due'
      exact ⟨x, List.mem_cons_of_mem m hx, hcycle⟩
    rw [List.countP_cons] at due
    cases moved with
    | submitted taken => exact hlater due
    | stop => exact absurd rfl hm
    | goes here running =>
      obtain ⟨-, hcount⟩ := due.resolve_left fun h => nomatch here.symm.trans h.1
      exact hlater (.inl ⟨rfl, Nat.le_of_succ_le_succ hcount⟩)
    | ends here halted => exact nomatch running.symm.trans halted
    | cycled here taken => exact ⟨_, List.mem_cons_self, rfl⟩
    | lost here taken => exact ⟨_, List.mem_cons_self, rfl⟩
    | sleepsOn here running => simp only [here, reduceCtorEq, false_and, or_self] at due
    | stopped here halted => exact nomatch running.symm.trans halted
    | wakes here woken => simp only [here, reduceCtorEq, false_and, or_self] at due
    | dozes here cut => simp only [here, reduceCtorEq, false_and, or_self] at due
    | slept here => simp only [here, reduceCtorEq, false_and, or_self] at due
    | rests here => simp only [here, reduceCtorEq, false_and, or_self] at due

/-! ### Every run -/

namespace Worker

variable {w last : Worker I} {moves : List Move} {moments before between after : List (Moment I)}
  {first second m : Moment I}

/-- Any moment of a run, with what comes after it. -/
theorem traced_at (fits : I.DelaysFit) (traced : Traced [] w)
    (run : w.history moves = (before ++ m :: after, last)) :
    ∃ u u' moves', Traced before u ∧ Moved u m u' ∧ u'.history moves' = (after, last) :=
  history_at traced (fun _ _ _ _ h (_ : True) moved => h.step fits moved) run fun _ _ => trivial

/-- From the beginning of a delay to the next invocation the time that is slept is the delay. -/
theorem waited_at {delay : Delay} (begun : first.begun? = some delay)
    (invoked : second.invokes = true) (moved : Moved w first w')
    (run : w'.history moves = (between ++ second :: after, last))
    (hbetween : ∀ m ∈ between, m.request? = none ∧ m.invokes = false) :
    delay.duration? = some (slept between) := by
  have hstart : Waits delay (slept ([] : List (Moment I))).nanoseconds w' := Waits.of_begun moved begun
  obtain ⟨u, u', -, hwaits, hmoved, -⟩ := history_at
    (motive := fun so_far u => Waits delay (slept so_far).nanoseconds u) hstart
    (fun so_far u m u' h hm hmoved => by
      rw [slept_concat]
      exact h.step hm.1 hm.2 hmoved) run hbetween
  exact hwaits.of_invokes hmoved invoked

/-- After a sleep that a request ended the first cycle adopts a request. -/
theorem preempted_at {event : CycleEvent} (woke : first.event = .woke .preempted)
    (moved : Moved w first w') (run : w'.history moves = (between ++ second :: after, last))
    (cycle : second.event = .cycle event) (hbetween : ∀ m ∈ between, m.isCycle = false) :
    ∃ delay, event = .adopted delay := by
  obtain ⟨hpending, -⟩ := moved.of_preempted woke
  obtain ⟨u, u', -, hpending', hmoved, -⟩ := history_at
    (motive := fun _ u => u.engine.reset.isPending = true) hpending
    (fun _ u m u' h hm hmoved => hmoved.pending hm h) run hbetween
  exact hmoved.adopts hpending' cycle

/-- The cadence of every run of a scheduler that works by itself while uploads arrive. -/
theorem punctual_of_history (state : Sandbox) (sink : Sink) (initialDelay : Delay)
    (quantum : Duration) (moves : List Move) :
    let worker : Worker Sandbox.interpreter := start state sink initialDelay quantum
    let (moments, last) := worker.history moves
    moments.map Moment.move = moves ∧ worker.run moves = (moments.map Moment.event, last) ∧
      Punctual moments := by
  intro worker
  refine ⟨worker.history_moves moves, worker.run_eq_moments moves, ?_⟩
  have hstart : Traced [] worker := Traced.start (I := Sandbox.interpreter) state sink initialDelay quantum
  have hat {before after : List (Moment Sandbox.interpreter)} {m : Moment Sandbox.interpreter}
      (h : (worker.history moves).1 = before ++ m :: after) :=
    have hrun : worker.history moves = (before ++ m :: after, (worker.history moves).2) :=
      Prod.ext h rfl
    traced_at Sandbox.interpreter_delaysFit hstart hrun
  refine ⟨?adopted, ?invoked, ?waited, ?preempted, ?resumed⟩
  case adopted =>
    intro before m after delay h hevent
    obtain ⟨u, u', -, htraced, hmoved, -⟩ := hat h
    cases hmoved with
    | cycled here taken =>
      cases hevent
      cases taken with
      | adopted pending => exact htraced.request delay pending
    | _ => cases hevent
  case invoked =>
    intro before m after h hinvokes
    obtain ⟨u, u', -, htraced, hmoved, -⟩ := hat h
    cases hmoved with
    | cycled here taken goesOn =>
      cases taken with
      | adopted pending => cases hinvokes
      | idle quiet empty => cases hinvokes
      | executed quiet found ran =>
        obtain ⟨outcome, hlatest⟩ := htraced.program _ found
        exact ⟨_, _, outcome, rfl, hlatest⟩
      | failed quiet found ran =>
        obtain ⟨outcome, hlatest⟩ := htraced.program _ found
        exact ⟨_, _, outcome, rfl, hlatest⟩
      | lostRun quiet found ran => exact absurd rfl goesOn
    | lost here taken =>
      cases taken with
      | lostRun quiet found ran =>
        obtain ⟨outcome, hlatest⟩ := htraced.program _ found
        exact ⟨_, _, outcome, rfl, hlatest⟩
    | submitted taken => cases hinvokes
    | _ => cases hinvokes
  case waited =>
    intro before first between second after delay h hbegun hinvokes hbetween
    obtain ⟨u, u', moves', -, hmoved, hrun⟩ := hat h
    exact waited_at hbegun hinvokes hmoved hrun hbetween
  case preempted =>
    intro before woke between next after event h hwoke hcycle hbetween
    obtain ⟨u, u', moves', -, hmoved, hrun⟩ := hat h
    exact preempted_at hwoke hmoved hrun hcycle hbetween
  case resumed =>
    intro before woke after h hwoke hunstopped hcount
    have hmem : ∀ m, m ∈ before ++ woke :: after → m.move ≠ .stop := fun m hm => hunstopped m (h ▸ hm)
    have hhistory : worker.history moves = (before ++ woke :: after, (worker.history moves).2) :=
      Prod.ext h rfl
    have hbegun : worker.running = true := rfl
    obtain ⟨u, u', moves', hrunning, hmoved, hrun⟩ := history_at
      (motive := fun _ u => u.running = true) hbegun
      (fun _ _ m _ hrunning hm hmoved => (hmoved.running hm).trans hrunning) hhistory
      fun m hm => hmem m (List.mem_append_left _ hm)
    obtain ⟨-, hphase⟩ := hmoved.of_preempted hwoke
    have hwoke' : woke.move ≠ .stop := hmem woke (List.mem_append_right _ List.mem_cons_self)
    exact exists_cycle hrun ((hmoved.running hwoke').trans hrunning)
      (fun m hm => hmem m (List.mem_append_right _ (List.mem_cons_of_mem _ hm)))
      (.inr ⟨hphase, hcount⟩)

end Worker

end PixelHost
