import PixelHost.Engine.Interpreter
import PixelHost.Engine.Metrics
import PixelHost.Engine.ResetSignal
import PixelHost.Engine.Sink

/-!
# The engine

One program at a time runs on an interpreter and sends its frames to a sink. An upload is compiled
and invoked once; if that succeeds it takes the place of the program before, and its delay is
requested from whoever invokes the program periodically. A failing upload changes nothing but
counters. A program that fails later, or asks for no further invocation, is removed. An invocation
that is lost leaves everything else as it was, but for what was counted before it began.

## Main definitions

* `Engine` — interpreter, program, sink, reset signal and counters.
* `Engine.submit` — an upload.
* `Engine.runPeriodic` — a periodic invocation.
-/

namespace PixelHost

/-- The state of the engine. -/
structure Engine (I : Interpreter) where
  interpreter : I.State
  /-- The program that is invoked periodically. -/
  program : Option (Program I) := none
  sink : Sink := {}
  reset : ResetSignal := {}
  metrics : Metrics := {}

/-- The result of a periodic invocation. -/
inductive PeriodicRun where
  /-- There is no program. -/
  | idle
  /-- The frame was sent; the program asks for a delay. -/
  | ran (delay : Delay)
  /-- The program failed and was removed. -/
  | failed (error : ScriptError)
  /-- The invocation was lost. -/
  | lost
  deriving DecidableEq, Repr, Inhabited

namespace Engine

variable {I : Interpreter}

/-- What must be kept while the interpreter works. -/
def inUse (e : Engine I) : InUse I.Chunk I.Memo :=
  match e.program with
  | some p => p.inUse
  | none => {}

/-- The source text of the program. -/
def source? (e : Engine I) : Option String := e.program.map (·.script.source)

/-- A program is installed. -/
def isRunning (e : Engine I) : Bool := e.program.isSome

/-- Changes the counters. -/
def count (e : Engine I) (f : Metrics → Metrics) : Engine I := { e with metrics := f e.metrics }

/-- Sends a frame to the sink. A failure is counted, and that is all. -/
def emit (e : Engine I) (frame : Bytes) : Engine I :=
  let (taken, sink) := e.sink.write frame
  let e := { e with sink }
  if taken then e.count fun m => { m with framesWritten := m.framesWritten + 1 }
  else e.count fun m => { m with sinkErrors := m.sinkErrors + 1 }

/-- Counts an upload as rejected. -/
def reject (e : Engine I) : Engine I :=
  e.count fun m => { m with uploadsRejected := m.uploadsRejected + 1 }

/-- Compiles and invokes an upload, and publishes it if both succeed. -/
def submit (e : Engine I) (source : String) : Ending ScriptError Delay × Engine I :=
  let e := e.count fun m => { m with compiles := m.compiles + 1 }
  match I.compile e.inUse source e.interpreter with
  | (.lost, interpreter) => (.lost, { e with interpreter })
  | (.error error, interpreter) => (.error error, { e with interpreter }.reject)
  | (.ok chunk, interpreter) =>
    match I.execute e.inUse chunk 0 none interpreter with
    | (.lost, interpreter) => (.lost, { e with interpreter })
    | (.error error, interpreter) => (.error error, { e with interpreter }.reject)
    | (.ok outcome, interpreter) =>
      let e := { e with interpreter }.emit outcome.frame
      let program := if outcome.delay.isForever then none
        else some { script := { source, chunk }, memo := outcome.memo }
      let e := { e with program, reset := e.reset.raise outcome.delay }
      (.ok outcome.delay, e.count fun m => { m with uploadsAccepted := m.uploadsAccepted + 1 })

/-- Invokes the program with a counter. -/
def runPeriodic (e : Engine I) (counter : UInt32) : PeriodicRun × Engine I :=
  match e.program with
  | none => (.idle, e)
  | some program =>
    let e := e.count fun m => { m with periodicRuns := m.periodicRuns + 1 }
    match I.execute program.inUse program.script.chunk counter program.memo e.interpreter with
    | (.ok outcome, interpreter) =>
      let program := if outcome.delay.isForever then none
        else some { program with memo := outcome.memo }
      (.ran outcome.delay, { e with interpreter, program }.emit outcome.frame)
    | (.error error, interpreter) =>
      let e := { e with interpreter, program := none }
      (.failed error, e.count fun m => { m with periodicFailures := m.periodicFailures + 1 })
    | (.lost, interpreter) => (.lost, { e with interpreter })

/-- The text that shows the slot of the program to developers. -/
def slotText (e : Engine I) : String :=
  let program := match e.program with
    | some p => s!"Some({p.debugText})"
    | none => "None"
  s!"ProgramSlot \x7b program: {program} \x7d"

/-- The text that shows the engine to developers. -/
def debugText (e : Engine I) : String :=
  s!"Engine \x7b reset_pending: {e.reset.isPending}, metrics: {e.metrics.debugText} \x7d"

end Engine

end PixelHost
