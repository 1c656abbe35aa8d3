import PixelHost.Lua.Naming

/-!
# Calls and returns

Starting the activation of a function and handing its results to the activation below. Calls of
functions of the program, protected calls, iterations that a metamethod prepares and the suspension
of a coroutine are all done here; any other library function is left to its library.

## Main definitions

* `Lua.Run.callSlot` — calls the function in a slot of the stack.
* `Lua.Run.callValue` — calls a function from anywhere.
* `Lua.Run.finish` — ends the top activation with its results.
-/

namespace PixelHost.Lua

/-! ### The names of the metamethods -/

namespace Event

/-- Called when the value is called. -/
def call : Bytes := "__call".toUTF8
/-- Called when a key is absent. -/
def index : Bytes := "__index".toUTF8
/-- Called when an absent key is assigned. -/
def newIndex : Bytes := "__newindex".toUTF8
/-- Called when a variable that holds the value goes out of scope. -/
def close : Bytes := "__close".toUTF8
/-- Joins values to a string. -/
def concat : Bytes := "__concat".toUTF8
/-- The length. -/
def len : Bytes := "__len".toUTF8
/-- Equality. -/
def eq : Bytes := "__eq".toUTF8
/-- The order `<`. -/
def lt : Bytes := "__lt".toUTF8
/-- The order `≤`. -/
def le : Bytes := "__le".toUTF8
/-- Negation. -/
def unm : Bytes := "__unm".toUTF8
/-- Bitwise negation. -/
def bnot : Bytes := "__bnot".toUTF8
/-- Prepares an iteration. -/
def pairs : Bytes := "__pairs".toUTF8
/-- The text of a value. -/
def toString : Bytes := "__tostring".toUTF8
/-- The name of a type. -/
def name : Bytes := "__name".toUTF8
/-- What a metatable shows of itself. -/
def metatable : Bytes := "__metatable".toUTF8

/-- The metamethod of an arithmetic operator. -/
def arith : ArithOp → Bytes
  | .add => "__add".toUTF8 | .sub => "__sub".toUTF8 | .mul => "__mul".toUTF8
  | .mod => "__mod".toUTF8 | .pow => "__pow".toUTF8 | .div => "__div".toUTF8
  | .floorDiv => "__idiv".toUTF8 | .bitAnd => "__band".toUTF8 | .bitOr => "__bor".toUTF8
  | .bitXor => "__bxor".toUTF8 | .shiftLeft => "__shl".toUTF8 | .shiftRight => "__shr".toUTF8

end Event

namespace Run

/-! ### The stack -/

/-- Makes the stack reach up to a slot. -/
def ensureStack (needed : Nat) : Run Unit := do
  let size := (← get).stack.size
  if needed > size then
    let grow (target : Nat) : Run Unit := do
      charge (16 * (target - size))
      modify fun m => { m with stack := m.stack ++ Array.replicate (target - m.stack.size) .nil }
    if needed ≤ maxStack then grow (min maxStack (max needed (2 * size)))
    else if size > maxStack then throw .inHandler
    else
      grow (maxStack + extraStack)
      raiseHere "stack overflow".toUTF8

/-- Checks how deep calls are nested. -/
def checkDepth (depth : Nat) : Run Unit := do
  if depth == maxDepth then raiseHere "C stack overflow".toUTF8
  else if depth ≥ maxDepth / 10 * 11 then throw .inHandler

/-- Makes the top activation the one that goes on, from an instruction on. -/
@[inline] def goOnAt (pc : Nat) : Run Unit :=
  modify fun m =>
    match m.frames with
    | ⟨.program f base _, _, _, _, _, _⟩ :: _ =>
      { m with pc, closure := f, code := f.proto.code, base }
    | _ => { m with pc }

/-- The depth of the top activation. -/
def topDepth : Run Nat := do
  match (← get).frames with
  | f :: _ => return f.depth
  | [] => return 0

/-- The first slot that is free for calls of the top activation. -/
def topFloor : Run Nat := do
  match (← get).frames with
  | f :: _ => return f.floor
  | [] => return 0

/-- Sets slots to `nil`. -/
def clearSlots (first : Nat) : Nat → Run Unit
  | 0 => return
  | n + 1 => do
    setSlot first .nil
    clearSlots (first + 1) n

/-- Writes values to slots. -/
def fillSlots (first : Nat) (vs : Array Value) : Run Unit :=
  modify fun m => { m with
    stack := Nat.fold vs.size (fun i h (stack : Array Value) =>
      stack.setIfInBounds (first + i) vs[i]) m.stack }

/-- Writes a number of results to slots; `none` takes all of them and notes where they end. -/
def placeResults (first : Nat) (wanted : Option Nat) (vs : Array Value) : Run Unit := do
  match wanted with
  | some 1 => setSlot first (vs.getD 0 .nil)
  | some n =>
    fillSlots first (vs.extract 0 n)
    clearSlots (first + vs.size) (n - vs.size)
  | none =>
    ensureStack (first + vs.size)
    fillSlots first vs
    modify fun m => { m with top := first + vs.size }

/-! ### Calls -/

/-- Starts a function of a program whose arguments are in the slots after a given one. -/
def enterProgram (f : Closure) (func count : Nat) (continuation : Continuation) (depth : Nat)
    (isTail : Bool) (returnTo : Nat) : Run Unit := do
  let base := func + 1
  let p := f.proto
  ensureStack (base + p.frameSize)
  let extra ← if p.isVararg && count > p.parameters then
      slots (base + p.parameters) (count - p.parameters)
    else pure #[]
  if count < p.parameters then clearSlots (base + count) (p.parameters - count)
  modify fun m => { m with
    frames := ⟨.program f base extra, continuation, returnTo, base + p.frameSize, depth, isTail⟩ ::
      m.frames
    pc := 0
    closure := f
    code := p.code
    base }

/-- Stops because a value cannot be called. -/
def callError {α : Type} (v : Value) : Run α := do
  let origin ← match (← get).frames with
    | ⟨.program f _ _, _, _, _, _, _⟩ :: _ => pure (Origin.ofCall? f.proto ((← get).pc - 1))
    | _ => pure none
  typeError v "call" origin

/-- Moves the values of slots one slot up. -/
def shiftUp (first : Nat) : Nat → Run Unit
  | 0 => return
  | n + 1 => do
    setSlot (first + n + 1) (← slot (first + n))
    shiftUp first n

/-- Calls the value in a slot with the arguments in the slots after it. The number `n` bounds how
often a call is passed on to another value. -/
def callSlot (n : Nat) (func count : Nat) (continuation : Continuation) (depth : Nat)
    (isTail : Bool) (returnTo : Nat) : Run Request := do
  match n with
  | 0 => raiseHere "stack overflow".toUTF8
  | n + 1 =>
    match ← slot func with
    | .closure f =>
      enterProgram f func count continuation depth isTail returnTo
      return .go
    | .native f =>
      let args ← slots (func + 1) count
      let frame : Frame := ⟨.native f args, continuation, returnTo, func, depth, false⟩
      modify fun m => { m with frames := frame :: m.frames }
      match f with
      | .base .pcall =>
        if args.isEmpty then badArgument 1 "value expected".toUTF8
        checkDepth (depth + 1)
        fillSlots func args
        callSlot n func (args.size - 1) .guarded (depth + 1) false 0
      | .base .xpcall =>
        unless (args.getD 1 .nil).isFunction do badType args 2 "function"
        checkDepth (depth + 1)
        let inner := args.extract 2 args.size
        fillSlots func (#[args.getD 0 .nil] ++ inner)
        callSlot n func inner.size .guarded (depth + 1) false 0
      | .base .pairs =>
        match args[0]? with
        | none => badArgument 1 "table expected, got no value".toUTF8
        | some v =>
          let h ← metamethod v Event.pairs
          if h.isNil then
            match v with
            | .table _ => return .finish #[.native (.base .next), v, .nil]
            | _ => badType args 1 "table"
          else
            checkDepth (depth + 1)
            fillSlots func #[h, v]
            callSlot n func 1 .firstThree (depth + 1) false 0
      | .coroutine .yield =>
        let m ← get
        if m.thread == 0 then raiseHere "attempt to yield from outside a coroutine".toUTF8
        else if m.pinned > 0 then raiseHere "attempt to yield across a C-call boundary".toUTF8
        else return .yielded args
      | f => return .native f args
    | v =>
      let h ← metamethod v Event.call
      if h.isNil then callError v
      ensureStack (func + count + 2)
      shiftUp func (count + 1)
      setSlot func h
      callSlot n func (count + 1) continuation depth isTail returnTo

/-- How often a call may be passed on to another value. -/
def maxPassedOn : Nat := 100000

/-- Calls a function with arguments for the top activation, one level deeper. -/
def callValue (f : Value) (args : Array Value) (continuation : Continuation) : Run Request := do
  let func ← topFloor
  let depth ← topDepth
  ensureStack (func + args.size + 1)
  setSlot func f
  fillSlots (func + 1) args
  checkDepth (depth + 1)
  callSlot maxPassedOn func args.size continuation (depth + 1) false (← get).pc

/-! ### Joining strings -/

/-- The longest run of values at the end that can be joined, with the values before it. -/
def joinable : List Value → List Bytes × List Value
  | [] => ([], [])
  | v :: rest =>
    match v.asString? with
    | some s =>
      let (more, others) := joinable rest
      (s :: more, others)
    | none => ([], v :: rest)

/-- Joins values in slots to one, from the last one on; a metamethod is called for two values that
are not both strings or numbers. -/
def concatFrom (first count : Nat) : Run Request := do
  if count < 2 then return .go
  let vs ← slots first count
  let (strings, others) := joinable vs.toList.reverse
  let rest := others.length
  let stringCount := strings.length
  if stringCount ≥ 2 then
    let size := strings.foldl (fun n s => n + s.size) 0
    demand size
    let joined := strings.reverse.foldl (· ++ ·) (ByteArray.emptyWithCapacity size)
    setSlot (first + rest) (← newString joined)
  let left := if stringCount ≥ 2 then rest + 1 else count
  if left < 2 then return .go
  let a ← slot (first + left - 2)
  let b ← slot (first + left - 1)
  let own ← metamethod a Event.concat
  let h ← if own.isNil then metamethod b Event.concat else pure own
  if h.isNil then
    let (v, i) := if a.canConcat then (b, first + left - 1) else (a, first + left - 2)
    typeError v "concatenate" (← registerOrigin? (i - (← get).base))
  else callValue h #[a, b] (.concat first (left - 1))

/-! ### Returns -/

/-- Closes the variables from a slot on, the last one first. -/
def closeFrom (level : Nat) (results : Option (Array Value)) : Run Request := do
  closeCells level
  let m ← get
  match m.toClose with
  | i :: rest =>
    if i ≥ level then
      set { m with toClose := rest }
      let v ← slot i
      let h ← metamethod v Event.close
      let continuation := match results with
        | some vs => Continuation.closingReturn level vs
        | none => .closing level
      callValue h #[v, .nil] continuation
    else return match results with
      | some vs => .finish vs
      | none => .go
  | [] => return match results with
    | some vs => .finish vs
    | none => .go

/-- Takes the jump at the next instruction, or skips it. -/
@[inline] def branch (taken : Bool) : Run Unit :=
  modify fun m =>
    if taken then
      match m.code.getD m.pc .varargPrep with
      | .jump target => { m with pc := target }
      | _ => { m with pc := m.pc + 1 }
    else { m with pc := m.pc + 1 }

/-- Ends the top activation with its results and hands them to the one below. -/
def finish (results : Array Value) : Run Request := do
  match (← get).frames with
  | [] => return .returned results
  | frame :: below =>
    modify fun m => { m with frames := below }
    goOnAt frame.returnTo
    match frame.continuation with
    | .results first wanted =>
      placeResults first wanted results
      return .go
    | .value i =>
      setSlot i (results.getD 0 .nil)
      return .go
    | .ignore => return .go
    | .test expected =>
      branch ((results.getD 0 .nil).truthy == expected)
      return .go
    | .concat first count =>
      setSlot (first + count - 1) (results.getD 0 .nil)
      concatFrom first count
    | .closing level => closeFrom level none
    | .closingReturn level vs => closeFrom level (some vs)
    | .guarded => return .finish (#[.bool true] ++ results)
    | .firstThree =>
      return .finish #[results.getD 0 .nil, results.getD 1 .nil, results.getD 2 .nil]
    | .done => return .returned results

end Run

end PixelHost.Lua
