import PixelHost.Lua.Library.Argument

/-!
# The coroutine library

A coroutine has a stack and activations of its own. Only one runs at a time: to resume one is to
put the running one aside and to carry out the other until it suspends itself, ends or fails.

## Main definitions

* `Lua.Run.switchTo` — puts the running coroutine aside for another one.
* `Lua.Library.Coroutines.resume` — carries on a coroutine.
* `Lua.Library.Coroutines.close` — ends a suspended coroutine.
* `Lua.Library.Coroutines.run` — carries out a function of `coroutine`.
-/

namespace PixelHost.Lua

namespace Run

/-- Puts the running coroutine aside with a status and makes another one the running one. -/
def switchTo (target : ThreadRef) (status : ThreadStatus) : Run Unit :=
  modify fun m =>
    let leave (t : Thread) : Thread := { t with
      status
      stack := m.stack
      top := m.top
      pc := m.pc
      frames := m.frames
      openCells := m.openCells
      toClose := m.toClose
      pinned := m.pinned }
    let threads := m.threads.modify m.thread leave
    let t := threads.getD target default
    let threads := threads.modify target fun t =>
      { t with status := .running, stack := #[], frames := [] }
    { m with
      threads
      thread := target
      stack := t.stack
      top := t.top
      pc := t.pc
      frames := t.frames
      openCells := t.openCells
      toClose := t.toClose
      pinned := t.pinned }

/-- Makes the top activation go on where it was. -/
def goOn : Run Unit := do goOnAt (← get).pc

/-- Puts a new coroutine into the heap. -/
def newThread (entry : Value) : Run ThreadRef := do
  charge 1100
  let fresh : Thread := { entry, stack := Array.replicate 40 .nil }
  let r := (← get).threads.size
  modify fun m => { m with threads := m.threads.push fresh }
  return r

/-- What is noted about a coroutine that does not run. -/
@[inline] def threadAt (r : ThreadRef) : Run Thread := return (← get).threads.getD r default

/-- Changes what is noted about a coroutine that does not run. -/
def modifyThread (r : ThreadRef) (f : Thread → Thread) : Run Unit :=
  modify fun m => { m with threads := m.threads.modify r f }

/-- The error value that a fault is reported by; running out of steps is no error. -/
def faultValue (fault : Fault) : Run Value := do
  match fault with
  | .raised v _ => return v
  | .memory => return .ofString "not enough memory"
  | .inHandler => return .ofString "error in error handling"
  | .outOfSteps => throw fault

end Run

namespace Library.Coroutines

open Run

/-- How a coroutine stopped. -/
inductive Resumed where
  | values (vs : Array Value)
  | failed (v : Value)

/-- The status of a coroutine. -/
def statusOf (r : ThreadRef) : Run ThreadStatus := do
  if r == (← get).thread then return .running else return (← threadAt r).status

/-- The name of a status. -/
def statusName : ThreadStatus → String
  | .suspended => "suspended"
  | .running => "running"
  | .normal => "normal"
  | .dead => "dead"

/-- Goes back to the coroutine that waits for the running one. -/
def goBack (waiting : ThreadRef) (status : ThreadStatus) (holding : Nat) : Run Unit := do
  switchTo waiting status
  modify fun m => { m with waiting := m.waiting.drop 1, holding }
  goOn

/-- Starts the running coroutine, or lets it go on with values where it suspended itself. -/
def start (c : Caller) (self : ThreadRef) (depth : Nat) (args : Array Value) : Run Stop := do
  let entry := (← threadAt self).entry
  if entry.isNil then
    goOn
    c.run (.finish args)
  else
    modifyThread self fun t => { t with entry := .nil }
    ensureStack (args.size + 1)
    setSlot 0 entry
    fillSlots 1 args
    c.run (← callSlot maxPassedOn 0 args.size .done depth false 0)

/-- Carries on a suspended coroutine with values until it stops again. -/
def carryOn (c : Caller) (target : ThreadRef) (args : Array Value) : Run Resumed := do
  let depth := (← topDepth) + 1
  let self := (← get).thread
  let holding := (← get).holding
  switchTo target .normal
  modify fun m => { m with waiting := self :: m.waiting }
  let stop ← tryCatch (do return Except.ok (← start c target depth args)) fun fault =>
    return .error fault
  match stop with
  | .ok (.returned vs) =>
    goBack self .dead holding
    return .values vs
  | .ok (.yielded vs) =>
    goBack self .suspended holding
    return .values vs
  | .error fault =>
    let v ← faultValue fault
    modify fun m => { m with frames := [] }
    goBack self .dead holding
    modifyThread target fun t => { t with failure := some v }
    return .failed v

/-- Carries on a coroutine with values until it stops again. -/
def resume (c : Caller) (target : ThreadRef) (args : Array Value) : Run Resumed := do
  match ← statusOf target with
  | .suspended =>
    if (← topDepth) ≥ maxDepth then return .failed (.ofString "C stack overflow")
    else carryOn c target args
  | .dead => return .failed (.ofString "cannot resume dead coroutine")
  | _ => return .failed (.ofString "cannot resume non-suspended coroutine")

/-- Closes the variables of the running coroutine from a slot on that are to be closed, the last one
first, at most `n` of them; an error on the way takes the place of the one before. -/
def closeAll (c : Caller) (level : Nat) (error : Option Value) : Nat → Run (Option Value)
  | 0 => return error
  | n + 1 => do
    let toClose := (← get).toClose
    match toClose with
    | [] => return error
    | i :: rest =>
      if i < level then return error
      let v ← slot i
      let frames := (← get).frames
      let (pinned, holding) := ((← get).pinned, (← get).holding)
      let depth ← topDepth
      let place : Frame := ⟨.native (.coroutine .close) #[], .done, 0, i + 1, depth, false⟩
      modify fun m => { m with toClose := rest, frames := place :: frames }
      let h ← metamethod v Event.close
      let failure ← tryCatch (do
          discard (c.call h #[v, error.getD .nil])
          return none)
        fun fault => return some (← faultValue fault)
      modify fun m => { m with frames, pinned, holding }
      closeAll c level (failure.or error) n

/-- Ends a coroutine that does not run: its variables are closed. Gives the error that it ended
with, if there is one. -/
def close (c : Caller) (target : ThreadRef) : Run (Option Value) := do
  let self := (← get).thread
  let holding := (← get).holding
  let failure := (← threadAt target).failure
  switchTo target .normal
  modify fun m => { m with waiting := self :: m.waiting, frames := [] }
  closeCells 0
  let error ← closeAll c 0 failure (← get).toClose.length
  modify fun m => { m with frames := [], stack := #[], pinned := 0 }
  goBack self .dead holding
  modifyThread target fun t => { t with failure := none, entry := .nil }
  return error

/-- An argument that is a coroutine. -/
def threadArgument (args : Args) (n : Nat) : Run ThreadRef := do
  match args.val n with
  | .thread r => return r
  | _ => badType args n "coroutine"

/-- Carries on a coroutine that stands behind a function. Its error is raised again, with the place
of the call in front. -/
def wrapped (c : Caller) (target : ThreadRef) (args : Args) : Run (Array Value) := do
  match ← resume c target args with
  | .values vs => return vs
  | .failed v =>
    let hasFailed := (← threadAt target).failure.isSome
    let v ← if hasFailed then do
        let error ← close c target
        pure (error.getD v)
      else pure v
    match v with
    | .str s =>
      if s == "not enough memory".toUTF8 then raise v
      else raise (.str ((← whereAt 1) ++ s))
    | v => raise v

/-- Carries out a function of `coroutine`. -/
def run (c : Caller) (f : CoroutineFn) (args : Args) : Run (Array Value) := do
  match f with
  | .close =>
    let r ← threadArgument args 1
    match ← statusOf r with
    | .suspended | .dead =>
      match ← close c r with
      | none => return #[.bool true]
      | some v => return #[.bool false, v]
    | status => fail s!"cannot close a {statusName status} coroutine"
  | .create =>
    let f ← args.function 1
    return #[.thread (← newThread f)]
  | .isyieldable =>
    let m ← get
    match args.val 1 with
    | .thread r =>
      let pinned ← if r == m.thread then pure m.pinned else do pure (← threadAt r).pinned
      return #[.bool (r != 0 && pinned == 0)]
    | _ => return #[.bool (m.thread != 0 && m.pinned == 0)]
  | .resume =>
    let r ← threadArgument args 1
    match ← resume c r (args.extract 1 args.size) with
    | .values vs => return #[.bool true] ++ vs
    | .failed v => return #[.bool false, v]
  | .running =>
    let m ← get
    return #[.thread m.thread, .bool (m.thread == 0)]
  | .status => return #[.ofString (statusName (← statusOf (← threadArgument args 1)))]
  | .wrap =>
    let f ← args.function 1
    return #[.native (.wrapped (← newThread f))]
  | .yield => return #[]

end Library.Coroutines

end PixelHost.Lua
