import Mathlib.Data.List.Induction
import PixelHost.Engine.Worker
import PixelHost.Proofs.Engine.History
import PixelHost.Proofs.Engine.Signal

/-!
# Runs of a working scheduler

A scheduler that works by itself is driven by its own moments, by uploads that arrive between any
two of them, and by the request to stop. What the interpreter is asked in a moment is recorded as for
runs of uploads and cycles; a moment in which the engine is used at all is one of their steps.

## Main definitions

* `Worker.start` — a worker whose engine has no program yet.
* `Moment`, `Worker.history` — the moments of a run.
* `Worker.Moved` — what a moment can be.

## Main results

* `Worker.moved` — every moment is one of the listed ones.
* `Worker.run_eq_moments` — recording changes nothing of a run.
* `Worker.history_at`, `Worker.history_induction` — what is kept up to a moment of a run, and over a
  whole run.
-/

namespace PixelHost

variable {I : Interpreter}

/-- A moment of a run: what happened, what came of it, and what the interpreter was asked. -/
structure Moment (I : Interpreter) where
  move : Worker.Move
  event : Worker.Event
  record : List (Activity I)

/-- A record that is empty is of no account. -/
theorem Engine.plain_recording (e : Engine I) : e.recording.plain = e := by
  rcases e with ⟨interpreter, _ | program, sink, reset, metrics⟩ <;> rfl

/-! ### Slices of a sleep -/

namespace Scheduler

variable {quantum length : Duration} {left rest : Option Duration} {pending : Bool}
  {outcome : SleepOutcome}

/-- While it is not told to stop, a scheduler wakes up for a request, or else when its time is up. -/
theorem wake_of_nextSlice (h : nextSlice quantum left true pending = .wake outcome) :
    pending = true ∧ outcome = .preempted ∨
      pending = false ∧ outcome = .elapsed ∧ left = some ⟨0⟩ := by
  cases pending with
  | true =>
    cases h
    exact .inl ⟨rfl, rfl⟩
  | false =>
    cases left with
    | none => cases h
    | some left =>
      obtain ⟨left⟩ := left
      rw [nextSlice] at h
      by_cases hzero : left = 0
      · subst hzero
        cases h
        exact .inr ⟨rfl, rfl, rfl⟩
      · simp only [Bool.not_true, Bool.false_eq_true, if_false, hzero] at h
        cases h

/-- A slice is no longer than the quantum, and it is taken from what is left. -/
theorem slice_of_nextSlice (h : nextSlice quantum left true pending = .slice length rest) :
    pending = false ∧ length.nanoseconds ≤ quantum.nanoseconds ∧
      left = rest.map fun r => ⟨r.nanoseconds + length.nanoseconds⟩ := by
  cases pending with
  | true => cases h
  | false =>
    cases left with
    | none =>
      cases h
      exact ⟨rfl, Nat.le_refl _, rfl⟩
    | some left =>
      obtain ⟨left⟩ := left
      rw [nextSlice] at h
      by_cases hzero : left = 0
      · subst hzero
        cases h
      · simp only [Bool.not_true, Bool.false_eq_true, if_false, hzero] at h
        cases h
        refine ⟨rfl, Nat.min_le_right _ _, ?_⟩
        have hsum : left - min left quantum.nanoseconds + min left quantum.nanoseconds = left :=
          Nat.sub_add_cancel (Nat.min_le_left _ _)
        simp only [Option.map_some, hsum]

end Scheduler

namespace Worker

/-- A worker whose engine has no program yet. -/
def start (state : I.State) (sink : Sink) (initialDelay : Delay) (quantum : Duration) :
    Worker I where
  engine := { interpreter := state, sink }
  scheduler := .start initialDelay quantum

/-- The engine of a worker with its scheduler. -/
def player (w : Worker I) : Player I := ⟨w.engine, w.scheduler⟩

/-- The worker on a recording interpreter whose record is empty. -/
def recording (w : Worker I) : Worker I.recording :=
  ⟨w.engine.recording, w.scheduler, w.running, w.phase⟩

/-- The worker without the record. -/
def plain (w : Worker I.recording) : Worker I := ⟨w.engine.plain, w.scheduler, w.running, w.phase⟩

/-- A moment with the record of what the interpreter was asked in it. -/
def recorded (w : Worker I) (m : Move) : Moment I × Worker I :=
  let (event, after) := w.recording.move m
  (⟨m, event, after.engine.interpreter.2⟩, after.plain)

/-- The moments of a run and the worker after it. -/
def history (w : Worker I) : List Move → List (Moment I) × Worker I
  | [] => ([], w)
  | m :: rest =>
    let (moment, w) := w.recorded m
    let (moments, w) := w.history rest
    (moment :: moments, w)

/-! ### What a moment can be -/

/-- The moments that a worker can come to, with the worker after each. -/
inductive Moved (w : Worker I) : Moment I → Worker I → Prop
  /-- An upload arrives. -/
  | submitted {source result record p}
      (taken : w.player.Taken ⟨.upload source, .uploaded result, record⟩ p) :
      Moved w ⟨.submit source, .submitted source result, record⟩ { w with engine := p.engine }
  /-- It is told to stop. -/
  | stop : Moved w ⟨.stop, .stopRequested, []⟩ { w with running := false }
  /-- It sees that it shall go on. -/
  | goes (here : w.phase = .deciding) (running : w.running = true) :
      Moved w ⟨.work, .looked, []⟩ { w with phase := .cycling }
  /-- It sees between two cycles that it shall stop. -/
  | ends (here : w.phase = .deciding) (halted : w.running = false) :
      Moved w ⟨.work, .ended, []⟩ { w with phase := .ended }
  /-- It carries out a cycle. -/
  | cycled {event record p} (here : w.phase = .cycling)
      (taken : w.player.Taken ⟨.cycle, .cycled event, record⟩ p) (goesOn : event ≠ .lost) :
      Moved w ⟨.work, .cycle event, record⟩ { w with
        engine := p.engine
        scheduler := p.scheduler
        phase := .lookingForStop p.scheduler.delay.duration? }
  /-- It carries out a cycle that is lost. -/
  | lost {record p} (here : w.phase = .cycling)
      (taken : w.player.Taken ⟨.cycle, .cycled .lost, record⟩ p) :
      Moved w ⟨.work, .cycle .lost, record⟩
        { w with engine := p.engine, scheduler := p.scheduler, phase := .ended }
  /-- It sees while it sleeps that it shall go on. -/
  | sleepsOn {left} (here : w.phase = .lookingForStop left) (running : w.running = true) :
      Moved w ⟨.work, .looked, []⟩ { w with phase := .lookingForRequest left }
  /-- It sees while it sleeps that it shall stop. -/
  | stopped {left} (here : w.phase = .lookingForStop left) (halted : w.running = false) :
      Moved w ⟨.work, .woke .stopped, []⟩ { w with phase := .ended }
  /-- It wakes up. -/
  | wakes {left outcome} (here : w.phase = .lookingForRequest left)
      (woken : Scheduler.nextSlice w.scheduler.quantum left true w.engine.reset.isPending =
        .wake outcome) :
      Moved w ⟨.work, .woke outcome, []⟩ { w with phase := .deciding }
  /-- It begins a slice of sleep. -/
  | dozes {left slice rest} (here : w.phase = .lookingForRequest left)
      (cut : Scheduler.nextSlice w.scheduler.quantum left true w.engine.reset.isPending =
        .slice slice rest) :
      Moved w ⟨.work, .looked, []⟩ { w with phase := .sleeping slice rest }
  /-- It has slept for a slice. -/
  | slept {slice rest} (here : w.phase = .sleeping slice rest) :
      Moved w ⟨.work, .slept slice, []⟩ { w with phase := .lookingForStop rest }
  /-- Nothing happens after its end. -/
  | rests (here : w.phase = .ended) : Moved w ⟨.work, .ended, []⟩ w

theorem after_of_ne_lost {event : CycleEvent} (goesOn : event ≠ .lost) (delay : Option Duration) :
    Phase.after event delay = .lookingForStop delay := by
  cases event with
  | lost => exact absurd rfl goesOn
  | _ => rfl

private theorem moved_work (w : Worker I) : Moved w (w.recorded .work).1 (w.recorded .work).2 := by
  obtain ⟨engine, scheduler, running, phase⟩ := w
  have hplain := engine.plain_recording
  cases phase with
  | deciding =>
    cases running with
    | true =>
      simp only [recorded, recording, move, step, if_true, plain, hplain]
      exact .goes rfl rfl
    | false =>
      simp only [recorded, recording, move, step, Bool.false_eq_true, if_false, plain, hplain]
      exact .ends rfl rfl
  | cycling =>
    let w : Worker I := ⟨engine, scheduler, running, .cycling⟩
    have htaken := w.player.taken .cycle
    simp only [recorded, recording, move, step, plain]
    simp only [Player.recorded, Player.act] at htaken
    by_cases hlost : (scheduler.cycle engine.recording).1 = .lost
    · rw [hlost]
      exact .lost (w := w) rfl (hlost ▸ htaken)
    · rw [after_of_ne_lost hlost]
      exact .cycled (w := w) rfl htaken hlost
  | lookingForStop left =>
    cases running with
    | true =>
      simp only [recorded, recording, move, step, if_true, plain, hplain]
      exact .sleepsOn rfl rfl
    | false =>
      simp only [recorded, recording, move, step, Bool.false_eq_true, if_false, plain, hplain]
      exact .stopped rfl rfl
  | lookingForRequest left =>
    have hreset : engine.recording.reset = engine.reset := rfl
    cases hnext : Scheduler.nextSlice scheduler.quantum left true engine.reset.isPending with
    | wake outcome =>
      simp only [recorded, recording, move, step, hreset, hnext, plain, hplain]
      exact .wakes rfl hnext
    | slice length rest =>
      simp only [recorded, recording, move, step, hreset, hnext, plain, hplain]
      exact .dozes rfl hnext
  | sleeping slice rest =>
    simp only [recorded, recording, move, step, plain, hplain]
    exact .slept rfl
  | ended =>
    simp only [recorded, recording, move, step, plain, hplain]
    exact .rests rfl

/-- Every moment is one of the listed ones. -/
theorem moved (w : Worker I) (m : Move) : Moved w (w.recorded m).1 (w.recorded m).2 := by
  cases m with
  | work => exact w.moved_work
  | submit source => exact .submitted (w.player.taken (.upload source))
  | stop =>
    simp only [recorded, recording, move, plain, Engine.plain_recording]
    exact .stop

/-! ### The record changes nothing -/

theorem Moved.move_eq {w w' : Worker I} {moment : Moment I} (h : Moved w moment w') :
    w.move moment.move = (moment.event, w') := by
  obtain ⟨engine, scheduler, running, phase⟩ := w
  cases h with
  | submitted taken =>
    have hact := taken.act_eq
    simp only [player, Player.act, Prod.mk.injEq, Answer.uploaded.injEq] at hact
    obtain ⟨hresult, rfl⟩ := hact
    simp only [move, hresult]
  | stop => rfl
  | goes here running =>
    cases here
    cases running
    rfl
  | ends here halted =>
    cases here
    cases halted
    rfl
  | cycled here taken goesOn =>
    cases here
    have hact := taken.act_eq
    simp only [player, Player.act, Prod.mk.injEq, Answer.cycled.injEq] at hact
    obtain ⟨hevent, rfl⟩ := hact
    simp only [move, step, hevent, after_of_ne_lost goesOn]
  | lost here taken =>
    cases here
    have hact := taken.act_eq
    simp only [player, Player.act, Prod.mk.injEq, Answer.cycled.injEq] at hact
    obtain ⟨hevent, rfl⟩ := hact
    simp only [move, step, hevent, Phase.after]
  | sleepsOn here running =>
    cases here
    cases running
    rfl
  | stopped here halted =>
    cases here
    cases halted
    rfl
  | wakes here woken =>
    cases here
    simp only [move, step, woken]
  | dozes here cut =>
    cases here
    simp only [move, step, cut]
  | slept here =>
    cases here
    rfl
  | rests here =>
    cases here
    rfl

/-- Recording changes nothing of a run. -/
theorem run_eq_moments (w : Worker I) (moves : List Move) :
    w.run moves = ((w.history moves).1.map Moment.event, (w.history moves).2) := by
  induction moves generalizing w with
  | nil => rfl
  | cons m rest ih =>
    have hmove : w.move m = ((w.recorded m).1.event, (w.recorded m).2) := (w.moved m).move_eq
    simp only [run, hmove, ih, history, List.map_cons]

/-! ### Moments in a run -/

/-- A moment says what happened in it. -/
theorem history_moves (w : Worker I) (moves : List Move) :
    (w.history moves).1.map Moment.move = moves := by
  induction moves generalizing w with
  | nil => rfl
  | cons m rest ih => simp only [history, List.map_cons, ih, recorded]

variable {w last : Worker I} {moves : List Move} {moment : Moment I} {before after : List (Moment I)}

/-- The first moment of a run, and the run after it. -/
theorem history_cons (h : w.history moves = (moment :: after, last)) :
    ∃ w' moves', Moved w moment w' ∧ w'.history moves' = (after, last) := by
  cases moves with
  | nil => cases h
  | cons m rest =>
    simp only [history, Prod.mk.injEq, List.cons.injEq] at h
    obtain ⟨⟨rfl, rfl⟩, rfl⟩ := h
    exact ⟨(w.recorded m).2, rest, w.moved m, rfl⟩

/-- What holds at the start of a run and is kept by the moments before one of them holds when that
one comes. The statement may speak of the moments so far. -/
theorem history_at {motive : List (Moment I) → Worker I → Prop} {kept : Moment I → Prop}
    (start : motive [] w)
    (step : ∀ so_far u m u', motive so_far u → kept m → Moved u m u' → motive (so_far ++ [m]) u')
    (run : w.history moves = (before ++ moment :: after, last)) (hkept : ∀ m ∈ before, kept m) :
    ∃ u u' moves', motive before u ∧ Moved u moment u' ∧ u'.history moves' = (after, last) := by
  induction before generalizing w moves motive with
  | nil =>
    obtain ⟨w', moves', moved, run'⟩ := history_cons run
    exact ⟨w, w', moves', start, moved, run'⟩
  | cons m before ih =>
    obtain ⟨w', moves', moved, run'⟩ := history_cons run
    have hstart : motive [m] w' := step [] w m w' start (hkept m List.mem_cons_self) moved
    exact ih (motive := fun so_far => motive (m :: so_far)) hstart
      (fun so_far u x u' h hx hmoved => step (m :: so_far) u x u' h hx hmoved) run'
      fun x hx => hkept x (List.mem_cons_of_mem m hx)

/-- What holds at the start of a run and is kept by every moment holds after the run. The statement
may speak of the moments so far. -/
theorem history_induction {motive : List (Moment I) → Worker I → Prop} (w : Worker I)
    (start : motive [] w)
    (step : ∀ so_far u m u', motive so_far u → Moved u m u' → motive (so_far ++ [m]) u')
    (moves : List Move) : motive (w.history moves).1 (w.history moves).2 := by
  induction moves generalizing w motive with
  | nil => exact start
  | cons m rest ih =>
    have hstart : motive [(w.recorded m).1] (w.recorded m).2 :=
      step [] w _ _ start (w.moved m)
    exact ih (motive := fun so_far => motive ((w.recorded m).1 :: so_far)) _ hstart
      fun so_far u x u' h hmoved => step ((w.recorded m).1 :: so_far) u x u' h hmoved

end Worker

end PixelHost
