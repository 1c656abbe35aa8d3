import PixelHost.Engine.Basic

/-!
# The scheduler

Invokes the program of the engine again and again. In each cycle a pending request is adopted, or
else the program is invoked once. Between two cycles the scheduler sleeps for the delay, in slices
that are short enough for a new request to be noticed soon.

## Main definitions

* `Scheduler.cycle` — one cycle.
* `Scheduler.nextSlice` — what a sleeping scheduler does after it looked at the signals.
* `Scheduler.sleep` — a sleep while the signals change.
-/

namespace PixelHost

/-- The state of a scheduler. -/
structure Scheduler where
  delay : Delay
  /-- The counter of the next invocation. -/
  counter : UInt32
  /-- The longest slice of a sleep. -/
  quantum : Duration
  deriving DecidableEq, Repr, Inhabited

/-- What a cycle did. -/
inductive CycleEvent where
  /-- A request was adopted, and nothing was invoked. -/
  | adopted (delay : Delay)
  /-- The program was invoked with a counter and asks for a delay. -/
  | executed (counter : UInt32) (delay : Delay)
  /-- The program failed and was removed. -/
  | failed (error : ScriptError)
  /-- There is no program. -/
  | idle
  /-- The invocation of the program was lost, and the cycle with it. -/
  | lost
  deriving DecidableEq, Repr, Inhabited

/-- How a sleep ended. -/
inductive SleepOutcome where
  | elapsed
  /-- A request is pending. -/
  | preempted
  /-- The scheduler is to stop. -/
  | stopped
  deriving DecidableEq, Repr, Inhabited

/-- What a sleeping scheduler does next. -/
inductive SleepStep where
  | wake (outcome : SleepOutcome)
  /-- It sleeps for a slice; `rest` is what remains of the delay then, `none` if it has no end. -/
  | slice (length : Duration) (rest : Option Duration)
  deriving DecidableEq, Repr, Inhabited

/-- The counter after a counter. It wraps around after 65535. -/
def nextCounter (counter : UInt32) : UInt32 := (counter + 1) % 0x10000

namespace Scheduler

/-- The counter after an adopted request; the upload itself was invoked with zero. -/
def counterStart : UInt32 := 1

/-- The shortest quantum. -/
def leastQuantum : Duration := .ofMillis 1

/-- A scheduler that has not invoked anything yet. -/
def start (initialDelay : Delay) (quantum : Duration) : Scheduler where
  delay := initialDelay
  counter := counterStart
  quantum := ⟨max quantum.nanoseconds leastQuantum.nanoseconds⟩

/-- Without a program at least a quantum passes between two cycles. -/
def withIdleFloor (s : Scheduler) : Scheduler :=
  let floor := UInt64.ofNat s.quantum.millis
  match s.delay with
  | .millis ms => if ms < floor then { s with delay := .millis floor } else s
  | .forever => s

variable {I : Interpreter}

/-- One cycle: adopts a pending request, or invokes the program once. -/
def cycle (s : Scheduler) (e : Engine I) : CycleEvent × Scheduler × Engine I :=
  match e.reset.take with
  | (some delay, reset) =>
    let e := { e with reset }.count fun m => { m with resetsAdopted := m.resetsAdopted + 1 }
    (.adopted delay, { s with delay, counter := counterStart }, e)
  | (none, reset) =>
    match { e with reset }.runPeriodic s.counter with
    | (.idle, e) => (.idle, s.withIdleFloor, e)
    | (.ran delay, e) =>
      (.executed s.counter delay, { s with delay, counter := nextCounter s.counter }, e)
    | (.failed error, e) => (.failed error, s.withIdleFloor, e)
    | (.lost, e) => (.lost, s, e)

/-! ### Sleeping -/

/-- What a sleeping scheduler does after it looked at the signals. -/
def nextSlice (quantum : Duration) (remaining : Option Duration) (running pending : Bool) :
    SleepStep :=
  if !running then .wake .stopped
  else if pending then .wake .preempted
  else match remaining with
    | none => .slice quantum none
    | some left =>
      if left.nanoseconds = 0 then .wake .elapsed
      else
        let length := min left.nanoseconds quantum.nanoseconds
        .slice ⟨length⟩ (some ⟨left.nanoseconds - length⟩)

/-- A sleep in which the signals are looked at no more than `n` times: the slices that were slept,
and how it ended if it did. `running` and `pending` are the signals by the number of the look. -/
def sleepFrom (quantum : Duration) (running pending : Nat → Bool) (remaining : Option Duration)
    (look : Nat) : Nat → List Duration × Option SleepOutcome
  | 0 => ([], none)
  | n + 1 =>
    match nextSlice quantum remaining (running look) (pending look) with
    | .wake outcome => ([], some outcome)
    | .slice length rest =>
      let (slices, outcome) := sleepFrom quantum running pending rest (look + 1) n
      (length :: slices, outcome)

/-- A sleep for the delay of the scheduler. -/
def sleep (s : Scheduler) (running pending : Nat → Bool) (looks : Nat) :
    List Duration × Option SleepOutcome :=
  sleepFrom s.quantum running pending s.delay.duration? 0 looks

/-- How often the signals are looked at in a sleep that nothing ends early. A sleep without an end
is ended at the first look or not at all while the signals stay what they are. -/
def looksOf (s : Scheduler) : Nat :=
  match s.delay.duration? with
  | some d => d.nanoseconds / s.quantum.nanoseconds + 2
  | none => 1

end Scheduler

end PixelHost
