import PixelHost.Lua.Library
import PixelHost.Lua.Step

/-!
# Execution

The loop that carries a machine on: instruction by instruction, library function by library
function, until what was started returns or its coroutine is suspended. An error unwinds the
activations up to the nearest protected call, which goes on with the error as its result.

The number of rounds is bounded by an allowance, for a script may run forever. A run that uses it up
ends with a fault that no protected call catches, and it has no result.

## Main definitions

* `Lua.Run.advance` — one round.
* `Lua.Run.recover` — the unwinding after a fault.
* `Lua.execute` — the loop.
* `Lua.Run.callFromOutside` — calls a function on a machine at rest.
-/

namespace PixelHost.Lua

/-- The activation is a protected call with arguments in order. -/
def Frame.guards (f : Frame) : Bool :=
  match f.activity with
  | .native (.base .pcall) args => !args.isEmpty
  | .native (.base .xpcall) args => (args.getD 1 .nil).isFunction
  | _ => false

/-- The activation is the first one of a run. -/
def Frame.endsRun (f : Frame) : Bool := f.continuation matches .done

namespace Run

open Library

/-! ### The budget -/

/-- Takes a part of the budget, and stops if nothing was left of it. -/
def checkBudget : Run Unit := do
  let m ← get
  let left := m.budget
  let limit := m.budgetLimit
  modify fun m => { m with
    untilCheck := m.checkInterval
    budget := left - Int.ofNat m.checkInterval }
  if left ≤ 0 then
    raise (.failure (← freshId) (.reported s!"instruction limit exceeded ({limit} instructions)"))

/-- Counts an instruction of the main coroutine. -/
@[inline] def countInstruction : Run Unit := do
  let m ← get
  if m.checkInterval != 0 && m.thread == 0 then
    if m.untilCheck ≤ 1 then checkBudget
    else modify fun m => { m with untilCheck := m.untilCheck - 1 }

/-! ### One round -/

/-- Counts the memory if more was taken than there is. -/
@[inline] def checkMemory : Run Unit := do
  let m ← get
  if m.lacks m.charge then collect

/-- Notes values as those that the running library function works on. -/
def anchor (vs : Array Value) : Run Unit :=
  modify fun m =>
    match m.frames with
    | f :: below =>
      match f.activity with
      | .native g _ => { m with frames := { f with activity := .native g vs } :: below }
      | _ => m
    | [] => m

/-- Carries out what a machine asks for, and gives what it asks for next. -/
@[inline] def advance (c : Caller) (request : Request) : Run Request := do
  match request with
  | .go =>
    countInstruction
    let next ← step
    checkMemory
    return next
  | .native f args =>
    let results ← f.run c args
    let m ← get
    if m.lacks m.charge then
      anchor results
      collect
    return .finish results
  | .finish results => finish results
  | request => return request

/-! ### Faults -/

/-- The function that an error value goes through before it is caught: the handler of the nearest
protected call; outside of all protected calls the main coroutine describes it for the host. -/
def handler? (m : Machine) : Option Value :=
  match m.frames.find? Frame.guards with
  | some ⟨.native (.base .xpcall) args, _, _, _, _, _⟩ => args[1]?
  | some _ => none
  | none => if m.thread == 0 then some (.native .describeError) else none

/-- Puts an error value through its handler. An error in the handler goes through the handler again,
one level deeper, at most `n` times. -/
def handle (c : Caller) (v : Value) : Nat → Run Value
  | 0 => throw .inHandler
  | n + 1 => do
    match handler? (← get) with
    | none => return v
    | some h =>
      let (floor, depth) := (← topFloor, ← topDepth)
      let place : Frame := ⟨.native .describeError #[v], .done, (← get).pc, floor, depth + 1, false⟩
      modify fun m => { m with frames := place :: m.frames }
      match ← tryCatch (do return Except.ok (← c.callOne h #[v])) fun e => return .error e with
      | .ok v => return v
      | .error (.raised v false) => handle c v n
      | .error fault => throw fault

/-- The fault that is caught in place of a fault that was just met. -/
def handled (c : Caller) (fault : Fault) : Run Fault := do
  match fault with
  | .raised v false =>
    let frames := (← get).frames
    let result ← tryCatch (do return Fault.raised (← handle c v (maxDepth / 10 * 11)) true)
      fun fault => return fault
    modify fun m => { m with frames }
    return result
  | fault => return fault

/-- The activations from the nearest protected call of the run on. -/
def guard? : List Frame → Option (Frame × List Frame)
  | [] => none
  | f :: below =>
    if f.guards then some (f, below)
    else if f.endsRun then none
    else guard? below

/-- The activations below those of the innermost run. -/
def belowRun : List Frame → List Frame
  | [] => []
  | f :: below => if f.endsRun then below else belowRun below

/-- Gives back slots of the stack if far more were taken than are in use. -/
def shrinkStack : Run Unit :=
  modify fun m =>
    let inUse := m.frames.foldl (fun n f => max n f.floor) 40
    if m.stack.size > maxStack || m.stack.size > 3 * inUse then
      { m with stack := m.stack.extract 0 (2 * inUse) }
    else m

/-- Goes on after a fault. The protected call that catches it closes the variables of the unwound
activations and has the error as its result; a fault that is not caught in this run ends it. -/
def recover (c : Caller) (pinned holding : Nat) (fault : Fault) : Run Request := do
  let fault ← handled c fault
  if fault matches .outOfSteps then throw fault
  match guard? (← get).frames with
  | some (guard, below) =>
    modify fun m => { m with frames := guard :: below, pinned, holding }
    let v ← faultValue fault
    closeCells guard.floor
    let error ← Coroutines.closeAll c guard.floor (some v) (← get).toClose.length
    shrinkStack
    return .finish #[.bool false, error.getD .nil]
  | none =>
    modify fun m => { m with frames := belowRun m.frames }
    throw fault

end Run

/-! ### The loop -/

/-- Carries a machine on from a request until what was started returns or the coroutine is
suspended, in at most so many rounds. -/
def execute : Nat → (pinned holding : Nat) → Request → Run Stop
  | 0, _, _, _ => throw .outOfSteps
  | n + 1, pinned, holding, request => fun m =>
    match request with
    | .returned results => .ok (.returned results) m
    | .yielded values => .ok (.yielded values) m
    | request =>
      let c : Caller := ⟨fun request m => execute n m.pinned m.holding request m⟩
      match Run.advance c request m with
      | .ok next m => execute n pinned holding next m
      | .error fault m =>
        match Run.recover c pinned holding fault m with
        | .ok next m => execute n pinned holding next m
        | .error fault m => .error fault m

/-- The machine at rest. Nothing is left on its stack. -/
def Machine.rested (m : Machine) : Machine := { m with
  threads := m.threads.setIfInBounds 0 { status := .running }
  thread := 0
  frames := []
  stack := Array.replicate 40 .nil
  top := 0
  pc := 0
  openCells := []
  toClose := []
  pinned := 0
  closure := {}
  code := #[]
  base := 0
  holding := 0
  waiting := [] }

namespace Run

/-- Puts a machine at rest. -/
def rest : Run Unit := modify Machine.rested

/-- Carries out a computation on a machine at rest, and the calls in it as told. An error closes the
variables that are still to be closed. -/
def outside {α : Type} (c : Caller) (body : Caller → Run α) : Run α := do
  rest
  let outcome ← tryCatch (do return Except.ok (← body c)) fun fault => return .error fault
  match outcome with
  | .ok a =>
    rest
    return a
  | .error .outOfSteps =>
    rest
    throw .outOfSteps
  | .error fault =>
    modify fun m => { m with frames := [], pinned := 0, holding := 0 }
    closeCells 0
    match (← get).toClose with
    | [] =>
      rest
      throw fault
    | toClose =>
      let v ← faultValue fault
      let error ← Library.Coroutines.closeAll c 0 (some v) toClose.length
      rest
      raise (error.getD .nil)

/-- Carries out a computation on a machine at rest, and the calls in it in runs of at most so many
rounds. -/
def fromOutside {α : Type} (steps : Nat) (body : Caller → Run α) : Run α :=
  outside ⟨fun request m => execute steps m.pinned m.holding request m⟩ body

/-- Calls a function and gives its results. -/
def calling (f : Value) (args : Array Value) (c : Caller) : Run (Array Value) := do
  match ← c.run (← callValue f args .done) with
  | .returned vs | .yielded vs => return vs

/-- Calls a function on a machine at rest and gives its results. -/
def callFromOutside (steps : Nat) (f : Value) (args : Array Value) : Run (Array Value) :=
  fromOutside steps (calling f args)

end Run

end PixelHost.Lua
