import PixelHost.Lua.Globals
import PixelHost.Sandbox.Result
import PixelHost.Text.Utf8

/-!
# The sandbox

An interpreter for uploaded scripts whose resources are bounded.

It is prepared once: libraries, light effects, code of the host's owner, and then the removal of
everything that reaches outside. What is in use at that point does not count; each script may take
a given amount of memory beyond it.

A script may run forever, unless there is a bound on its instructions, and it may make the host break
off. Such a call is lost. A run that takes more rounds than it may is taken for one that never ends.

Every script has global names of its own. Names that it did not assign are looked up among those
that all scripts share, and the libraries it sees are copies, so nothing that a script assigns can
be seen by another one.

## Main definitions

* `SandboxConfig` — the bounds and the preparation.
* `Sandbox.prepare` — a prepared machine.
* `Sandbox.compile`, `Sandbox.invoke` — compiling and invoking a script.
* `Sandbox.interpreter` — the sandbox as an interpreter for the engine.
-/

namespace PixelHost

open Lua

/-- The bounds of a sandbox and its preparation. -/
structure SandboxConfig where
  /-- The number of pixels; a frame has three bytes for each. -/
  pixelCount : Nat := 300
  /-- The memory that scripts may take. -/
  memoryBudget : Nat := 4 * 1024 * 1024
  /-- The instructions of an invocation; `0` for no bound. -/
  instructionLimit : Nat := 0
  /-- Code that runs before the sandbox is closed. -/
  bootstrap : Option String := none
  /-- The time in milliseconds. -/
  clock : Nat := 0
  /-- The rounds that a run may take. A run that takes more never ends. -/
  allowance : Nat := 1 <<< 60
  deriving Inhabited

/-- A prepared machine with what was fixed when it was prepared. -/
structure Sandbox where
  machine : Machine
  frameLength : Nat
  instructionLimit : Nat
  allowance : Nat

/-- A size in a word of 64 bits. -/
def asWord (n : Nat) : Nat := (UInt64.ofNat n).toNat

/-- The number of bytes of a frame. -/
def SandboxConfig.frameLength (config : SandboxConfig) : Nat := asWord (config.pixelCount * 3)

namespace Sandbox

/-- The number of instructions between two checks of the bound. -/
def checkInterval : Nat := 10000

/-- The names that are removed before any script runs. -/
def removedNames : List String :=
  ["os", "io", "debug", "package", "require", "loadfile", "dofile", "load", "collectgarbage"]

/-- The libraries of which every program has copies. -/
def copiedLibraries : List String := ["string", "table", "math", "utf8", "coroutine"]

/-! ### Failures -/

/-- The failure that a fault is reported by. Nothing is reported of a run that does not end, nor of one
that the host breaks off. -/
def failureOf? : Fault → Option Failure
  | .raised (.failure _ (.fatal _)) _ | .outOfSteps => none
  | .raised (.failure _ (.reported text)) _ => some (.inCallback (.runtime text))
  | .raised v _ => some (.runtime (Utf8.lossy (v.plainText v.typeName.toUTF8)))
  | .memory => some (.memory "not enough memory")
  | .inHandler => some (.runtime "error in error handling")

/-- The failure of a source text that is not a program. -/
def loadFailure (e : Chunk.Failure) : Failure :=
  if e.tooDeep then .runtime (Utf8.lossy e.message) else .syntaxError (Utf8.lossy e.message)

/-- A failure as a sandbox that cannot be prepared. -/
def setupError (failure : Failure) : ScriptError :=
  .runtime s!"sandbox setup failed: {failure.message}"

/-! ### Preparation -/

/-- A step of the preparation. It may end without an error to report. -/
abbrev Setup := EStateM (Option ScriptError) Machine

/-- Carries out a computation on the machine; a fault becomes an error, if it is reported. -/
def carryOut {α : Type} (wording : Failure → ScriptError) (x : Run α) : Setup α := fun m =>
  match x m with
  | .ok a m => .ok a m
  | .error fault m => .error ((failureOf? fault).map wording) m

/-- Runs a source text on the shared global names. -/
def runText (allowance : Nat) (wording : Failure → ScriptError) (source name : String) :
    Setup Unit := do
  match Chunk.compile source.toUTF8 name.toUTF8 with
  | .error e => throw (some (wording (loadFailure e)))
  | .ok p =>
    discard <| carryOut wording do
      let f ← Run.loadChunk p (.table (← get).globals)
      Run.callFromOutside allowance f #[]

/-- Gives the light effects and the constants of the strip global names. -/
def installEffects (config : SandboxConfig) : Run Unit := do
  let globals := (← get).globals
  for (name, f) in EffectFn.all do Run.setField globals name (.native (.effect f))
  Run.setField globals "PIX_NUM" (.ofNat config.pixelCount)
  Run.setField globals "FRAME_LEN" (.ofNat config.frameLength)
  Run.setField globals "DELAY_FOREVER" (.int Delay.foreverCode)

/-- Prepares a machine. -/
def setUp (config : SandboxConfig) : Setup Unit := do
  carryOut setupError (installEffects config)
  match config.bootstrap with
  | some source => runText config.allowance ScriptError.ofFailure source "bootstrap"
  | none => pure ()
  -- All strings share one metatable; scripts must not get hold of it.
  runText config.allowance setupError "getmetatable('').__metatable = false" "sandbox"
  let plain (failure : Failure) : ScriptError := .runtime failure.message
  for name in removedNames do
    carryOut plain <| Run.fromOutside config.allowance fun c => do
      c.setElement (.table (← get).globals) (.ofString name) .nil
  carryOut ScriptError.ofFailure Run.recount
  modify fun m => { m with limit := some (asWord (m.charge + config.memoryBudget)) }

/-- A prepared sandbox, with what was printed on the way; an error if the preparation fails. -/
def prepare (config : SandboxConfig) : Ending ScriptError Sandbox × Bytes :=
  match setUp config (Machine.fresh config.clock) with
  | .ok _ machine => (.ok {
      machine := { machine with output := .empty }
      frameLength := config.frameLength
      instructionLimit := config.instructionLimit
      allowance := config.allowance }, machine.output)
  | .error e machine => (.failing e, machine.output)

/-- The memory in use. -/
def usedMemory (s : Sandbox) : Nat := s.machine.charge

/-- The memory that may be in use. -/
def memoryLimit (s : Sandbox) : Nat := s.machine.limit.getD s.machine.charge

/-! ### Compiling -/

/-- A copy of a table without its metatable. -/
def copyTable (r : TableRef) : Run TableRef := do
  let copy ← Run.newTable {}
  for (k, v) in (← Run.tableAt r).entries do Run.rawSet copy k v
  return copy

/-- Makes the table of the global names of a program. -/
def newEnvironment : Run TableRef := do
  let globals := (← get).globals
  let env ← Run.newTable {}
  Run.setField env "_G" (.table env)
  for name in copiedLibraries do
    match ← Run.rawGet globals (.ofString name) with
    | .table r => Run.setField env name (.table (← copyTable r))
    | _ => pure ()
  let metatable ← Run.newTable {}
  Run.setField metatable "__index" (.table globals)
  Run.setField metatable "__metatable" (.bool false)
  Run.modifyTable env fun t => { t with metatable := some metatable }
  return env

/-- Notes which values the host keeps. -/
def keep (inUse : InUse Value Value) : Run Unit :=
  modify fun m => { m with held := (inUse.chunks ++ inUse.memos).toArray }

/-- Loads a source text on a machine at rest. -/
def loadAtRest (source : String) : Run (Except Failure Value) := do
  let env ← newEnvironment
  match Chunk.compile source.toUTF8 "upload".toUTF8 with
  | .error e => return .error (loadFailure e)
  | .ok p =>
    let f ← Run.loadChunk p (.table env)
    modify fun m => { m with held := m.held.push f }
    Run.checkMemory
    return .ok f

/-- Loads a source text as a function with global names of its own. -/
def load (inUse : InUse Value Value) (source : String) : Run (Except Failure Value) := do
  keep inUse
  Run.rest
  loadAtRest source

/-- Runs a computation on the machine of a sandbox. -/
def runOn {α : Type} (s : Sandbox) (x : Run α) : Ending Failure α × Sandbox :=
  match x s.machine with
  | .ok a machine => (.ok a, { s with machine })
  | .error fault machine => (.failing (failureOf? fault), { s with machine })

/-- Compiles a source text. -/
def compile (s : Sandbox) (inUse : InUse Value Value) (source : String) :
    Ending ScriptError Value × Sandbox :=
  match s.runOn (load inUse source) with
  | (.ok (.ok f), s) => (.ok f, s)
  | (.ok (.error failure), s) | (.error failure, s) => (.error (ScriptError.ofLoading failure), s)
  | (.lost, s) => (.lost, s)

/-! ### Invoking -/

/-- Sets the bound on instructions for the next run. -/
def armBudget (limit : Nat) : Run Unit :=
  modify fun m => { m with
    checkInterval := if limit = 0 then 0 else checkInterval
    untilCheck := checkInterval
    budget := Int.ofNat (min limit 0x7FFFFFFFFFFFFFFF)
    budgetLimit := limit }

/-- Calls a program with a counter and the value handed on to it. -/
def call (s : Sandbox) (inUse : InUse Value Value) (chunk : Value) (counter : UInt32)
    (memo : Option Value) : Run (Array Value) := do
  keep inUse
  armBudget s.instructionLimit
  Run.callFromOutside s.allowance chunk #[.ofNat counter.toNat, memo.getD .nil]

/-- Invokes a program. After a failure the memory is counted, and what the invocation left behind is
given back. -/
def invoke (s : Sandbox) (inUse : InUse Value Value) (chunk : Value) (counter : UInt32)
    (memo : Option Value) : Ending ScriptError (Outcome Value) × Sandbox :=
  let (results, s) := s.runOn (s.call inUse chunk counter memo)
  let outcome : Ending ScriptError (Outcome Value) := match results with
    | .ok results =>
      .ofExcept (readResults s.frameLength (s.machine.tables.getD · default) results)
    | .error failure => .error (ScriptError.ofFailure failure)
    | .lost => .lost
  match outcome with
  | .ok outcome => (.ok outcome, s)
  | .error e => (.error e, (s.runOn Run.recount).2)
  | .lost => (.lost, s)

/-- The sandbox as an interpreter for the engine. -/
def interpreter : Interpreter where
  State := Sandbox
  Chunk := Value
  Memo := Value
  memoType := Value.hostTypeName
  compile inUse source s := s.compile inUse source
  execute inUse chunk counter memo s := s.invoke inUse chunk counter memo

end Sandbox

end PixelHost
