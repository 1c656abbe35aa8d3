import PixelHost.Engine.Scheduler

/-!
# A running scheduler

A scheduler that works by itself while uploads arrive and until it is told to stop. Its work is cut
into the moments at which something from outside can come between: before it looks at a signal,
before a cycle, and during a slice of sleep. A cycle that is lost is its last one.

## Main definitions

* `Worker` — a scheduler at work on an engine.
* `Worker.step` — its next moment.
* `Worker.Move`, `Worker.run` — moments of the worker and events from outside in any order.
* `Worker.finishProgram` — lets it work until no program is left.
-/

namespace PixelHost

/-- Where a working scheduler is. -/
inductive Phase where
  /-- It is about to see whether it shall go on. -/
  | deciding
  /-- It is about to carry out a cycle. -/
  | cycling
  /-- It is about to look at the stop signal; `remaining` is what is left of the delay. -/
  | lookingForStop (remaining : Option Duration)
  /-- It is about to look for a request. -/
  | lookingForRequest (remaining : Option Duration)
  /-- It sleeps for a slice. -/
  | sleeping (slice : Duration) (rest : Option Duration)
  | ended
  deriving DecidableEq, Repr, Inhabited

/-- Where a scheduler is after a cycle. The delay is what it sleeps for. -/
def Phase.after (event : CycleEvent) (delay : Option Duration) : Phase :=
  match event with
  | .lost => .ended
  | _ => .lookingForStop delay

/-- A scheduler at work on an engine. -/
structure Worker (I : Interpreter) where
  engine : Engine I
  scheduler : Scheduler
  /-- The scheduler shall go on. -/
  running : Bool := true
  phase : Phase := .deciding

namespace Worker

variable {I : Interpreter}

/-- What happens at a moment. -/
inductive Event where
  | cycle (event : CycleEvent)
  | slept (slice : Duration)
  | woke (outcome : SleepOutcome)
  | submitted (source : String) (result : Ending ScriptError Delay)
  | stopRequested
  /-- The worker looked at a signal and goes on. -/
  | looked
  | ended

/-- The next moment of the worker. -/
def step (w : Worker I) : Event × Worker I :=
  match w.phase with
  | .deciding =>
    if w.running then (.looked, { w with phase := .cycling })
    else (.ended, { w with phase := .ended })
  | .cycling =>
    let (event, scheduler, engine) := w.scheduler.cycle w.engine
    (.cycle event, { w with scheduler, engine, phase := .after event scheduler.delay.duration? })
  | .lookingForStop remaining =>
    if w.running then (.looked, { w with phase := .lookingForRequest remaining })
    else (.woke .stopped, { w with phase := .ended })
  | .lookingForRequest remaining =>
    match Scheduler.nextSlice w.scheduler.quantum remaining true w.engine.reset.isPending with
    | .wake outcome => (.woke outcome, { w with phase := .deciding })
    | .slice length rest => (.looked, { w with phase := .sleeping length rest })
  | .sleeping slice rest => (.slept slice, { w with phase := .lookingForStop rest })
  | .ended => (.ended, w)

/-- What can happen next: a moment of the worker, or something from outside. -/
inductive Move where
  | work
  | submit (source : String)
  | stop

/-- What a move does. -/
def move (w : Worker I) : Move → Event × Worker I
  | .work => w.step
  | .submit source =>
    let (result, engine) := w.engine.submit source
    (.submitted source result, { w with engine })
  | .stop => (.stopRequested, { w with running := false })

/-- Moves in a given order, with the events. -/
def run (w : Worker I) : List Move → List Event × Worker I
  | [] => ([], w)
  | m :: rest =>
    let (event, w) := w.move m
    let (events, w) := w.run rest
    (event :: events, w)

/-- The worker has nothing left to do. -/
def isIdle (w : Worker I) : Bool := !w.engine.isRunning && !w.engine.reset.isPending

/-- Lets the worker work until it has nothing left to do, for at most `n` moments. -/
def untilIdle (w : Worker I) : Nat → Worker I
  | 0 => w
  | n + 1 => if w.isIdle then w else w.step.2.untilIdle n

/-- Lets the worker work until it ends, for at most `n` moments. -/
def untilEnded (w : Worker I) : Nat → Worker I
  | 0 => w
  | n + 1 => if w.phase = .ended then w else w.step.2.untilEnded n

/-- Lets the worker work until no program is left, and stops it. -/
def finishProgram (w : Worker I) (moments : Nat) : Worker I :=
  { w.untilIdle moments with running := false }.untilEnded moments

end Worker

end PixelHost
