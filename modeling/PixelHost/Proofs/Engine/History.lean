import Mathlib.Data.List.Induction
import PixelHost.Engine.Scheduler

/-!
# Runs of an engine with its scheduler

An engine and one scheduler are driven by uploads and cycles in any order. What the interpreter was
asked on the way is recorded by the interpreter itself: `Interpreter.recording` answers as the
interpreter it stands for and keeps a record of the questions. The engine is the same for every
interpreter, so a run on the recording one shows all invocations of the run on the plain one, and
only those.

An upload or a cycle may be lost. Whoever made it does not go on then, but someone else may, and a host
that catches what broke it off may go on as well. So runs are followed beyond such a step.

## Main definitions

* `Interpreter.recording` — an interpreter that records what it is asked.
* `Player`, `Player.act` — an engine with its scheduler, and an upload or a cycle on it.
* `Player.history` — the steps of a run with the record of each.
* `Engine.Loses` — an upload is lost.
* `Player.Taken` — what a step can do.

## Main results

* `Player.taken` — every step is one of the listed ones.
* `Player.run_eq_history` — recording changes nothing of a run.
* `Player.history_induction` — induction over the steps of a run.
-/

namespace PixelHost

/-! ### Recording -/

/-- An invocation with all that went into it and what came out of it. -/
structure Call (I : Interpreter) where
  chunk : I.Chunk
  counter : UInt32
  memo : Option I.Memo
  result : Ending ScriptError (Outcome I.Memo)

/-- What an interpreter is asked, with its answer. -/
inductive Activity (I : Interpreter) where
  | compile (source : String) (result : Ending ScriptError I.Chunk)
  | invoke (call : Call I)

/-- The interpreter with a record of what it was asked, the latest entry last. -/
def Interpreter.recording (I : Interpreter) : Interpreter where
  State := I.State × List (Activity I)
  Chunk := I.Chunk
  Memo := I.Memo
  memoType := I.memoType
  compile inUse source s :=
    let (result, state) := I.compile inUse source s.1
    (result, state, s.2 ++ [.compile source result])
  execute inUse chunk counter memo s :=
    let (result, state) := I.execute inUse chunk counter memo s.1
    (result, state, s.2 ++ [.invoke ⟨chunk, counter, memo, result⟩])

variable {I : Interpreter}

namespace Engine

/-- The engine on a recording interpreter whose record is empty. -/
def recording (e : Engine I) : Engine I.recording where
  interpreter := (e.interpreter, [])
  program := e.program.map fun p => ⟨⟨p.script.source, p.script.chunk⟩, p.memo⟩
  sink := e.sink
  reset := e.reset
  metrics := e.metrics

/-- The program without the record. -/
def plainProgram (p : Program I.recording) : Program I := ⟨⟨p.script.source, p.script.chunk⟩, p.memo⟩

/-- The engine without the record. -/
def plain (e : Engine I.recording) : Engine I where
  interpreter := e.interpreter.1
  program := e.program.map plainProgram
  sink := e.sink
  reset := e.reset
  metrics := e.metrics

end Engine

/-! ### Players -/

/-- An engine with the scheduler that invokes its program. -/
structure Player (I : Interpreter) where
  engine : Engine I
  scheduler : Scheduler

/-- What can happen to a player. -/
inductive Op where
  | upload (source : String)
  | cycle
  deriving DecidableEq, Repr, Inhabited

/-- What comes of it. -/
inductive Answer where
  | uploaded (result : Ending ScriptError Delay)
  | cycled (event : CycleEvent)

/-- A step of a run: what happened, what came of it, and what the interpreter was asked. -/
structure Step (I : Interpreter) where
  op : Op
  answer : Answer
  record : List (Activity I)

namespace Player

/-- A player without a program. -/
def start (state : I.State) (sink : Sink) (initialDelay : Delay) (quantum : Duration) :
    Player I where
  engine := { interpreter := state, sink }
  scheduler := .start initialDelay quantum

/-- An upload or a cycle. -/
def act (p : Player I) : Op → Answer × Player I
  | .upload source =>
    let (result, engine) := p.engine.submit source
    (.uploaded result, { p with engine })
  | .cycle =>
    let (event, scheduler, engine) := p.scheduler.cycle p.engine
    (.cycled event, { scheduler, engine })

/-- An upload or a cycle, with the record of what the interpreter was asked in it. -/
def recorded (p : Player I) (op : Op) : Step I × Player I :=
  let (answer, q) := act ⟨p.engine.recording, p.scheduler⟩ op
  (⟨op, answer, q.engine.interpreter.2⟩, ⟨q.engine.plain, q.scheduler⟩)

/-- The steps of a run and the player after it. -/
def history (p : Player I) : List Op → List (Step I) × Player I
  | [] => ([], p)
  | op :: rest =>
    let (step, p) := p.recorded op
    let (steps, p) := p.history rest
    (step :: steps, p)

/-- The answers of a run and the player after it. -/
def run (p : Player I) : List Op → List Answer × Player I
  | [] => ([], p)
  | op :: rest =>
    let (answer, p) := p.act op
    let (answers, p) := p.run rest
    (answer :: answers, p)

/-! ### What a step can do -/

/-- The counters after a frame was offered. -/
def framesCounted (taken : Bool) (m : Metrics) : Metrics :=
  if taken then { m with framesWritten := m.framesWritten + 1 }
  else { m with sinkErrors := m.sinkErrors + 1 }

/-- A frame is counted once, whatever becomes of it. -/
theorem framesCounted_sum (taken : Bool) (m : Metrics) :
    (framesCounted taken m).framesWritten + (framesCounted taken m).sinkErrors =
      m.framesWritten + m.sinkErrors + 1 := by
  cases taken <;> simp only [framesCounted, if_true, Bool.false_eq_true, if_false] <;> omega

/-- What a successful program leaves in the slot: itself with what it handed on, or nothing if it
asks for no further invocation. -/
def kept (script : Script I) (outcome : Outcome I.Memo) : Option (Program I) :=
  if outcome.delay.isForever then none else some ⟨script, outcome.memo⟩

end Player

/-- An upload is lost when it is compiled or when it is invoked, with what the interpreter was asked and
its state then. -/
inductive Engine.Loses (e : Engine I) (source : String) : List (Activity I) → I.State → Prop
  | compiling {state} (compiled : I.compile e.inUse source e.interpreter = (.lost, state)) :
      e.Loses source [.compile source .lost] state
  | running {chunk state state'}
      (compiled : I.compile e.inUse source e.interpreter = (.ok chunk, state))
      (ran : I.execute e.inUse chunk 0 none state = (.lost, state')) :
      e.Loses source [.compile source (.ok chunk), .invoke ⟨chunk, 0, none, .lost⟩] state'

namespace Player

/-- The steps that a player can take, with the player after each. -/
inductive Taken (p : Player I) : Step I → Player I → Prop
  /-- An upload is no program. -/
  | unfit {source error state}
      (compiled : I.compile p.engine.inUse source p.engine.interpreter = (.error error, state)) :
      Taken p ⟨.upload source, .uploaded (.error error), [.compile source (.error error)]⟩
        { p with engine := { p.engine with
            interpreter := state
            metrics := { p.engine.metrics with
              compiles := p.engine.metrics.compiles + 1
              uploadsRejected := p.engine.metrics.uploadsRejected + 1 } } }
  /-- An upload fails when it is invoked. -/
  | rejected {source chunk error state state'}
      (compiled : I.compile p.engine.inUse source p.engine.interpreter = (.ok chunk, state))
      (ran : I.execute p.engine.inUse chunk 0 none state = (.error error, state')) :
      Taken p ⟨.upload source, .uploaded (.error error),
          [.compile source (.ok chunk), .invoke ⟨chunk, 0, none, .error error⟩]⟩
        { p with engine := { p.engine with
            interpreter := state'
            metrics := { p.engine.metrics with
              compiles := p.engine.metrics.compiles + 1
              uploadsRejected := p.engine.metrics.uploadsRejected + 1 } } }
  /-- An upload is published. -/
  | accepted {source chunk outcome state state'}
      (compiled : I.compile p.engine.inUse source p.engine.interpreter = (.ok chunk, state))
      (ran : I.execute p.engine.inUse chunk 0 none state = (.ok outcome, state')) :
      Taken p ⟨.upload source, .uploaded (.ok outcome.delay),
          [.compile source (.ok chunk), .invoke ⟨chunk, 0, none, .ok outcome⟩]⟩
        { p with engine := {
            interpreter := state'
            program := kept ⟨source, chunk⟩ outcome
            sink := (p.engine.sink.write outcome.frame).2
            reset := p.engine.reset.raise outcome.delay
            metrics := framesCounted (p.engine.sink.write outcome.frame).1
              { p.engine.metrics with
                compiles := p.engine.metrics.compiles + 1
                uploadsAccepted := p.engine.metrics.uploadsAccepted + 1 } } }
  /-- An upload is lost. -/
  | lostUpload {source record state} (loses : p.engine.Loses source record state) :
      Taken p ⟨.upload source, .uploaded .lost, record⟩
        { p with engine := { p.engine with
            interpreter := state
            metrics := { p.engine.metrics with compiles := p.engine.metrics.compiles + 1 } } }
  /-- A cycle adopts the pending request. -/
  | adopted {delay} (pending : p.engine.reset.take.1 = some delay) :
      Taken p ⟨.cycle, .cycled (.adopted delay), []⟩
        { scheduler := { p.scheduler with delay, counter := Scheduler.counterStart }
          engine := { p.engine with
            reset := p.engine.reset.take.2
            metrics := { p.engine.metrics with
              resetsAdopted := p.engine.metrics.resetsAdopted + 1 } } }
  /-- A cycle finds no program. -/
  | idle (quiet : p.engine.reset.take.1 = none) (empty : p.engine.program = none) :
      Taken p ⟨.cycle, .cycled .idle, []⟩
        { scheduler := p.scheduler.withIdleFloor
          engine := { p.engine with reset := p.engine.reset.take.2 } }
  /-- A cycle invokes the program. -/
  | executed {program outcome state} (quiet : p.engine.reset.take.1 = none)
      (found : p.engine.program = some program)
      (ran : I.execute program.inUse program.script.chunk p.scheduler.counter program.memo
        p.engine.interpreter = (.ok outcome, state)) :
      Taken p ⟨.cycle, .cycled (.executed p.scheduler.counter outcome.delay),
          [.invoke ⟨program.script.chunk, p.scheduler.counter, program.memo, .ok outcome⟩]⟩
        { scheduler := { p.scheduler with
            delay := outcome.delay
            counter := nextCounter p.scheduler.counter }
          engine := {
            interpreter := state
            program := kept program.script outcome
            sink := (p.engine.sink.write outcome.frame).2
            reset := p.engine.reset.take.2
            metrics := framesCounted (p.engine.sink.write outcome.frame).1
              { p.engine.metrics with periodicRuns := p.engine.metrics.periodicRuns + 1 } } }
  /-- A cycle invokes the program, which fails and is removed. -/
  | failed {program error state} (quiet : p.engine.reset.take.1 = none)
      (found : p.engine.program = some program)
      (ran : I.execute program.inUse program.script.chunk p.scheduler.counter program.memo
        p.engine.interpreter = (.error error, state)) :
      Taken p ⟨.cycle, .cycled (.failed error),
          [.invoke ⟨program.script.chunk, p.scheduler.counter, program.memo, .error error⟩]⟩
        { scheduler := p.scheduler.withIdleFloor
          engine := { p.engine with
            interpreter := state
            program := none
            reset := p.engine.reset.take.2
            metrics := { p.engine.metrics with
              periodicRuns := p.engine.metrics.periodicRuns + 1
              periodicFailures := p.engine.metrics.periodicFailures + 1 } } }
  /-- A cycle invokes the program, and the invocation is lost. -/
  | lostRun {program state} (quiet : p.engine.reset.take.1 = none)
      (found : p.engine.program = some program)
      (ran : I.execute program.inUse program.script.chunk p.scheduler.counter program.memo
        p.engine.interpreter = (.lost, state)) :
      Taken p ⟨.cycle, .cycled .lost,
          [.invoke ⟨program.script.chunk, p.scheduler.counter, program.memo, .lost⟩]⟩
        { p with engine := { p.engine with
            interpreter := state
            reset := p.engine.reset.take.2
            metrics := { p.engine.metrics with
              periodicRuns := p.engine.metrics.periodicRuns + 1 } } }

end Player

/-! ### Uploads and cycles of an engine -/

namespace Engine

open Player

/-- Sending a frame changes the sink and one counter. -/
theorem emit_eq (e : Engine I) (frame : Bytes) :
    e.emit frame = { e with
      sink := (e.sink.write frame).2
      metrics := framesCounted (e.sink.write frame).1 e.metrics } := by
  rcases hw : e.sink.write frame with ⟨taken, sink⟩
  cases taken <;> simp only [emit, framesCounted, count, hw] <;> rfl

/-- The frame counters and the others are counted apart. -/
theorem framesCounted_uploadsAccepted (taken : Bool) (m : Metrics) :
    { framesCounted taken m with
        uploadsAccepted := (framesCounted taken m).uploadsAccepted + 1 } =
      framesCounted taken { m with uploadsAccepted := m.uploadsAccepted + 1 } := by
  cases taken <;> rfl

variable {e : Engine I} {source : String} {chunk : I.Chunk} {error : ScriptError}
  {outcome : Outcome I.Memo} {state state' : I.State}

theorem submit_of_compile_error
    (compiled : I.compile e.inUse source e.interpreter = (.error error, state)) :
    e.submit source = (.error error, { e with
      interpreter := state
      metrics := { e.metrics with
        compiles := e.metrics.compiles + 1
        uploadsRejected := e.metrics.uploadsRejected + 1 } }) := by
  have hc : I.compile (e.count fun m => { m with compiles := m.compiles + 1 }).inUse source
      e.interpreter = (.error error, state) := compiled
  simp only [submit, count] at hc ⊢
  rw [hc]
  rfl

theorem submit_of_execute_error
    (compiled : I.compile e.inUse source e.interpreter = (.ok chunk, state))
    (ran : I.execute e.inUse chunk 0 none state = (.error error, state')) :
    e.submit source = (.error error, { e with
      interpreter := state'
      metrics := { e.metrics with
        compiles := e.metrics.compiles + 1
        uploadsRejected := e.metrics.uploadsRejected + 1 } }) := by
  let e' := e.count fun m => { m with compiles := m.compiles + 1 }
  have hc : I.compile e'.inUse source e.interpreter = (.ok chunk, state) := compiled
  have hr : I.execute e'.inUse chunk 0 none state = (.error error, state') := ran
  simp only [e', submit, count] at hc hr ⊢
  rw [hc]
  simp only [hr]
  rfl

theorem submit_of_loses {record : List (Activity I)} (loses : e.Loses source record state) :
    e.submit source = (.lost, { e with
      interpreter := state
      metrics := { e.metrics with compiles := e.metrics.compiles + 1 } }) := by
  let e' := e.count fun m => { m with compiles := m.compiles + 1 }
  cases loses with
  | compiling compiled =>
    have hc : I.compile e'.inUse source e.interpreter = (.lost, state) := compiled
    simp only [e', submit, count] at hc ⊢
    rw [hc]
  | @running chunk state' _ compiled ran =>
    have hc : I.compile e'.inUse source e.interpreter = (.ok chunk, state') := compiled
    have hr : I.execute e'.inUse chunk 0 none state' = (.lost, state) := ran
    simp only [e', submit, count] at hc hr ⊢
    rw [hc]
    simp only [hr]

theorem submit_of_ok
    (compiled : I.compile e.inUse source e.interpreter = (.ok chunk, state))
    (ran : I.execute e.inUse chunk 0 none state = (.ok outcome, state')) :
    e.submit source = (.ok outcome.delay, {
      interpreter := state'
      program := kept ⟨source, chunk⟩ outcome
      sink := (e.sink.write outcome.frame).2
      reset := e.reset.raise outcome.delay
      metrics := framesCounted (e.sink.write outcome.frame).1 { e.metrics with
        compiles := e.metrics.compiles + 1
        uploadsAccepted := e.metrics.uploadsAccepted + 1 } }) := by
  let e' := e.count fun m => { m with compiles := m.compiles + 1 }
  have hc : I.compile e'.inUse source e.interpreter = (.ok chunk, state) := compiled
  have hr : I.execute e'.inUse chunk 0 none state = (.ok outcome, state') := ran
  simp only [e', submit, count, emit_eq] at hc hr ⊢
  rw [hc]
  simp only [hr, framesCounted_uploadsAccepted]
  rfl

theorem runPeriodic_of_none (empty : e.program = none) (counter : UInt32) :
    e.runPeriodic counter = (.idle, e) := by
  simp only [runPeriodic, empty]

theorem runPeriodic_of_ok {program : Program I} {counter : UInt32}
    (found : e.program = some program)
    (ran : I.execute program.inUse program.script.chunk counter program.memo e.interpreter =
      (.ok outcome, state)) :
    e.runPeriodic counter = (.ran outcome.delay, { e with
      interpreter := state
      program := kept program.script outcome
      sink := (e.sink.write outcome.frame).2
      metrics := framesCounted (e.sink.write outcome.frame).1
        { e.metrics with periodicRuns := e.metrics.periodicRuns + 1 } }) := by
  simp only [runPeriodic, found, count, ran, emit_eq]
  rfl

theorem runPeriodic_of_error {program : Program I} {counter : UInt32}
    (found : e.program = some program)
    (ran : I.execute program.inUse program.script.chunk counter program.memo e.interpreter =
      (.error error, state)) :
    e.runPeriodic counter = (.failed error, { e with
      interpreter := state
      program := none
      metrics := { e.metrics with
        periodicRuns := e.metrics.periodicRuns + 1
        periodicFailures := e.metrics.periodicFailures + 1 } }) := by
  simp only [runPeriodic, found, count, ran]

theorem runPeriodic_of_lost {program : Program I} {counter : UInt32}
    (found : e.program = some program)
    (ran : I.execute program.inUse program.script.chunk counter program.memo e.interpreter =
      (.lost, state)) :
    e.runPeriodic counter = (.lost, { e with
      interpreter := state
      metrics := { e.metrics with periodicRuns := e.metrics.periodicRuns + 1 } }) := by
  simp only [runPeriodic, found, count, ran]

/-! ### Recorded questions -/

/-- What is kept in use does not depend on the record. -/
theorem inUse_recording (e : Engine I) : e.recording.inUse = e.inUse := by
  unfold inUse recording
  cases e.program <;> rfl

theorem compile_recording {result : Ending ScriptError I.Chunk}
    (compiled : I.compile e.inUse source e.interpreter = (result, state)) :
    I.recording.compile e.recording.inUse source e.recording.interpreter =
      (result, state, [.compile source result]) := by
  rw [inUse_recording]
  change ((I.compile e.inUse source e.interpreter).1, (I.compile e.inUse source e.interpreter).2,
    [Activity.compile source (I.compile e.inUse source e.interpreter).1]) = _
  rw [compiled]

theorem execute_recording {inUse : InUse I.Chunk I.Memo} {counter : UInt32}
    {memo : Option I.Memo} {result : Ending ScriptError (Outcome I.Memo)}
    (record : List (Activity I)) (ran : I.execute inUse chunk counter memo state = (result, state')) :
    I.recording.execute inUse chunk counter memo (state, record) =
      (result, state', record ++ [.invoke ⟨chunk, counter, memo, result⟩]) := by
  simp only [Interpreter.recording, ran]

theorem plain_recording_program (e : Engine I) :
    e.recording.program.map plainProgram = e.program := by
  rcases e with ⟨interpreter, program, sink, reset, metrics⟩
  cases program <;> rfl

theorem plain_kept (script : Script I.recording) (outcome : Outcome I.Memo) :
    Option.map plainProgram (kept (I := I.recording) script outcome) =
      kept (I := I) ⟨script.source, script.chunk⟩ outcome := by
  unfold kept
  split <;> rfl

end Engine

namespace Player

/-! ### Every step is one of the listed ones -/

private theorem taken_upload (p : Player I) (source : String) :
    Taken p (p.recorded (.upload source)).1 (p.recorded (.upload source)).2 := by
  rcases hc : I.compile p.engine.inUse source p.engine.interpreter with ⟨compiled, state⟩
  have hcr := Engine.compile_recording hc
  have hp := Engine.plain_recording_program p.engine
  cases compiled with
  | error error =>
    have hs := Engine.submit_of_compile_error hcr
    simp only [recorded, act, hs, Engine.plain, hp]
    exact .unfit hc
  | lost =>
    have hs := Engine.submit_of_loses (.compiling hcr)
    simp only [recorded, act, hs, Engine.plain, hp]
    exact .lostUpload (.compiling hc)
  | ok chunk =>
    rcases hr : I.execute p.engine.inUse chunk 0 none state with ⟨result, state'⟩
    have hrr := Engine.execute_recording [.compile source (.ok chunk)] hr
    rw [← Engine.inUse_recording] at hrr
    cases result with
    | error error =>
      have hs := Engine.submit_of_execute_error hcr hrr
      simp only [recorded, act, hs, Engine.plain, hp]
      exact .rejected hc hr
    | lost =>
      have hs := Engine.submit_of_loses (.running hcr hrr)
      simp only [recorded, act, hs, Engine.plain, hp]
      exact .lostUpload (.running hc hr)
    | ok outcome =>
      have hs := Engine.submit_of_ok hcr hrr
      have hk := Engine.plain_kept (I := I) ⟨source, chunk⟩ outcome
      simp only [recorded, act, hs, Engine.plain]
      rw [hk]
      exact .accepted hc hr

private theorem taken_cycle (p : Player I) :
    Taken p (p.recorded .cycle).1 (p.recorded .cycle).2 := by
  have hp := Engine.plain_recording_program p.engine
  have hreset : p.engine.recording.reset = p.engine.reset := rfl
  rcases ht : p.engine.reset.take with ⟨request, reset⟩
  cases request with
  | some delay =>
    have h := Taken.adopted (p := p) (congrArg Prod.fst ht)
    simp only [ht] at h
    simp only [recorded, act, Scheduler.cycle, hreset, ht, Engine.count, Engine.plain, hp]
    exact h
  | none =>
    have quiet : p.engine.reset.take.1 = none := congrArg Prod.fst ht
    cases hprog : p.engine.program with
    | none =>
      have empty : ({ p.engine.recording with reset } : Engine I.recording).program = none := by
        simp only [Engine.recording, hprog, Option.map_none]
      have h := Taken.idle quiet hprog
      simp only [ht] at h
      simp only [recorded, act, Scheduler.cycle, hreset, ht,
        Engine.runPeriodic_of_none empty, Engine.plain, hp]
      exact h
    | some program =>
      have found : ({ p.engine.recording with reset } : Engine I.recording).program =
          some ⟨⟨program.script.source, program.script.chunk⟩, program.memo⟩ := by
        simp only [Engine.recording, hprog, Option.map_some]
      rcases hr : I.execute program.inUse program.script.chunk p.scheduler.counter program.memo
        p.engine.interpreter with ⟨result, state⟩
      have hrr := Engine.execute_recording [] hr
      cases result with
      | error error =>
        have hs := Engine.runPeriodic_of_error found hrr
        have h := Taken.failed quiet hprog hr
        simp only [ht] at h
        simp only [recorded, act, Scheduler.cycle, hreset, ht, hs, Engine.plain]
        exact h
      | lost =>
        have hs := Engine.runPeriodic_of_lost found hrr
        have h := Taken.lostRun quiet hprog hr
        simp only [ht] at h
        simp only [recorded, act, Scheduler.cycle, hreset, ht, hs, Engine.plain, hp]
        exact h
      | ok outcome =>
        have hs := Engine.runPeriodic_of_ok found hrr
        have h := Taken.executed quiet hprog hr
        have hk := Engine.plain_kept (I := I) ⟨program.script.source, program.script.chunk⟩ outcome
        simp only [ht] at h
        simp only [recorded, act, Scheduler.cycle, hreset, ht, hs, Engine.plain]
        rw [hk]
        exact h

/-- Every step is one of the listed ones. -/
theorem taken (p : Player I) (op : Op) : Taken p (p.recorded op).1 (p.recorded op).2 := by
  cases op with
  | upload source => exact p.taken_upload source
  | cycle => exact p.taken_cycle

/-! ### The record changes nothing -/

theorem Taken.act_eq {p q : Player I} {step : Step I} (h : Taken p step q) :
    p.act step.op = (step.answer, q) := by
  cases h with
  | unfit compiled => simp only [act, Engine.submit_of_compile_error compiled]
  | rejected compiled ran => simp only [act, Engine.submit_of_execute_error compiled ran]
  | accepted compiled ran => simp only [act, Engine.submit_of_ok compiled ran]
  | lostUpload loses => simp only [act, Engine.submit_of_loses loses]
  | adopted pending =>
    rcases ht : p.engine.reset.take with ⟨request, reset⟩
    rw [ht] at pending
    cases pending
    simp only [act, Scheduler.cycle, ht, Engine.count]
  | idle quiet empty =>
    rcases ht : p.engine.reset.take with ⟨request, reset⟩
    rw [ht] at quiet
    cases quiet
    have hs := Engine.runPeriodic_of_none (e := { p.engine with reset }) empty
    simp only [act, Scheduler.cycle, ht, hs]
  | executed quiet found ran =>
    rcases ht : p.engine.reset.take with ⟨request, reset⟩
    rw [ht] at quiet
    cases quiet
    have hs := Engine.runPeriodic_of_ok (e := { p.engine with reset }) found ran
    simp only [act, Scheduler.cycle, ht, hs]
  | failed quiet found ran =>
    rcases ht : p.engine.reset.take with ⟨request, reset⟩
    rw [ht] at quiet
    cases quiet
    have hs := Engine.runPeriodic_of_error (e := { p.engine with reset }) found ran
    simp only [act, Scheduler.cycle, ht, hs]
  | lostRun quiet found ran =>
    rcases ht : p.engine.reset.take with ⟨request, reset⟩
    rw [ht] at quiet
    cases quiet
    have hs := Engine.runPeriodic_of_lost (e := { p.engine with reset }) found ran
    simp only [act, Scheduler.cycle, ht, hs]

/-- Recording changes nothing of an answer and of the player after it. -/
theorem act_eq_recorded (p : Player I) (op : Op) :
    p.act op = ((p.recorded op).1.answer, (p.recorded op).2) :=
  (p.taken op).act_eq

/-- Recording changes nothing of a run. -/
theorem run_eq_history (p : Player I) (ops : List Op) :
    p.run ops = ((p.history ops).1.map Step.answer, (p.history ops).2) := by
  induction ops generalizing p with
  | nil => rfl
  | cons op rest ih => simp only [run, p.act_eq_recorded op, ih, history, List.map_cons]

/-- A step says what happened in it. -/
theorem history_ops (p : Player I) (ops : List Op) : (p.history ops).1.map Step.op = ops := by
  induction ops generalizing p with
  | nil => rfl
  | cons op rest ih => simp only [history, List.map_cons, ih, recorded]

/-- A run that goes on after another one. -/
theorem history_append (p : Player I) (ops rest : List Op) :
    p.history (ops ++ rest) =
      ((p.history ops).1 ++ ((p.history ops).2.history rest).1,
        ((p.history ops).2.history rest).2) := by
  induction ops generalizing p with
  | nil => rfl
  | cons op ops ih => simp only [List.cons_append, history, ih]

theorem history_concat (p : Player I) (ops : List Op) (op : Op) :
    p.history (ops ++ [op]) =
      ((p.history ops).1 ++ [((p.history ops).2.recorded op).1],
        ((p.history ops).2.recorded op).2) := by
  rw [history_append]
  rfl

/-- What holds at the start and is kept by every step holds after every run. The statement may speak
of the steps so far. -/
theorem history_induction {motive : List (Step I) → Player I → Prop} (p : Player I)
    (start : motive [] p)
    (step : ∀ steps q s r, motive steps q → Taken q s r → motive (steps ++ [s]) r)
    (ops : List Op) : motive (p.history ops).1 (p.history ops).2 := by
  induction ops using List.reverseRecOn with
  | nil => exact start
  | append_singleton ops op ih =>
    rw [history_concat]
    exact step _ _ _ _ ih ((p.history ops).2.taken op)

end Player

/-- One more step of a run counts at most once. -/
theorem countP_concat {α : Type*} (p : α → Bool) (as : List α) (a : α) :
    (as ++ [a]).countP p = as.countP p + (p a).toNat := by
  rw [List.countP_append, List.countP_singleton]
  cases p a <;> rfl

end PixelHost
