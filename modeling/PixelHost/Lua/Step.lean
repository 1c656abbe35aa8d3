import PixelHost.Lua.Operation

/-!
# Single instructions

What each instruction does to the machine. An instruction either has its effect at once, or starts
an activation after which the machine goes on with the next instruction.

## Main definitions

* `Lua.Run.step` — carries out the next instruction.
-/

namespace PixelHost.Lua.Run

/-! ### Elements and operators -/

/-- The result of an operation to a slot, now or when the call that gives it is done. -/
def settle (outcome : Outcome) (dest : Nat) : Run Request := do
  match outcome with
  | .value v =>
    setSlot dest v
    return .go
  | .call f args => callValue f args (.value dest)

/-- Reads an element into a register. -/
@[inline] def readElement (v key : Value) (a : Nat) (source : Source) : Run Request := do
  let found ← match v with
    | .table r => rawGet r key
    | _ => pure .nil
  if found.isNil then
    let dest := (← get).base + a
    settle (← lookUp v key source) dest
  else
    setRegister a found
    return .go

/-- Assigns an element. -/
def writeElement (v key new : Value) (source : Source) : Run Request := do
  match ← assign v key new source with
  | none => return .go
  | some (f, args) => callValue f args .ignore

/-- The place of a captured variable of the running function; one that it did not capture is new. -/
@[inline] def upvalueCell (u : Nat) : Run CellRef := do
  match (← get).closure.upvalues[u]? with
  | some r => return r
  | none => newCell (.closed .nil)

/-- Carries out an arithmetic operator. -/
@[inline] def arithStep (op : ArithOp) (a : Nat) (x y : Operand) : Run Request := do
  let v ← operand x
  let w ← operand y
  let quick := quickArith op v w
  if quick.isNil then
    let dest := (← get).base + a
    settle (← arithmetic op v w x.source y.source) dest
  else
    setRegister a quick
    return .go

/-- Carries out a comparison that does not have two integers. -/
def compareStep (op : CompareOp) (v w : Value) (expected : Bool) : Run Request := do
  match ← comparison op v w with
  | .known holds =>
    branch (holds == expected)
    return .go
  | .ask f v w direction =>
    callValue f #[v, w] (.test (if direction then expected else !expected))

/-! ### Calls and returns -/

/-- The number of values from a slot on that an instruction takes, if it takes all of them up to the
end of those last produced. -/
def takeOpen (first : Nat) : Run Nat := do
  let count := (← get).top - first
  modify fun m => { m with top := 0 }
  return count

/-- A given number, or the number of the values last produced from a slot on. -/
@[inline] def countFrom (count : Option Nat) (first : Nat) : Run Nat :=
  match count with
  | some n => return n
  | none => takeOpen first

/-- Calls the function in a register in place of the running one. -/
def tailCallStep (n : Nat) (func count : Nat) : Run Request := do
  match n with
  | 0 => raiseHere "stack overflow".toUTF8
  | n + 1 =>
    match ← slot func with
    | .closure f =>
      let m ← get
      let dest := m.base - 1
      closeCells m.base
      let args ← slots (func + 1) count
      match m.frames with
      | frame :: below =>
        modify fun m => { m with frames := below }
        ensureStack (dest + count + 1)
        setSlot dest (.closure f)
        fillSlots (dest + 1) args
        enterProgram f dest count frame.continuation frame.depth true frame.returnTo
        return .go
      | [] => return .go
    | .native _ =>
      callSlot maxPassedOn func count (.results func none) (← topDepth) false (← get).pc
    | v =>
      let h ← metamethod v Event.call
      if h.isNil then callError v
      ensureStack (func + count + 2)
      shiftUp func (count + 1)
      setSlot func h
      tailCallStep n func (count + 1)

/-- Copies slots, the first one first. -/
def copySlots (stack : Array Value) (source dest : Nat) : Nat → Array Value
  | 0 => stack
  | n + 1 =>
    let v := stack.getD source .nil
    copySlots (stack.setIfInBounds dest v) (source + 1) (dest + 1) n

/-- Returns the values in slots from the running function. -/
def returnStep (first count : Nat) : Run Request := do
  let m ← get
  let mustClose : Bool := match m.toClose with
    | i :: _ => i ≥ m.base
    | [] => false
  if mustClose then closeFrom m.base (some (← slots first count))
  else
    unless m.openCells.isEmpty do closeCells m.base
    match m.frames with
    | frame :: below =>
      match frame.continuation with
      | .results dest (some wanted) =>
        modify fun m => { m with frames := below }
        goOnAt frame.returnTo
        modify fun m => { m with stack := copySlots m.stack first dest (min count wanted) }
        clearSlots (dest + count) (wanted - count)
        return .go
      | .results dest none =>
        modify fun m => { m with frames := below }
        goOnAt frame.returnTo
        modify fun m => { m with
          stack := copySlots m.stack first dest count
          top := dest + count }
        return .go
      | _ => return .finish (← slots first count)
    | [] => return .finish (← slots first count)

/-- Copies the arguments beyond the parameters to registers. -/
def varargStep (a : Nat) (wanted : Option Nat) : Run Request := do
  let m ← get
  let extra := match m.frames with
    | ⟨.program _ _ extra, _, _, _, _, _⟩ :: _ => extra
    | _ => #[]
  placeResults (m.base + a) wanted extra
  return .go

/-! ### Loops -/

/-- Stops because a number that controls a loop is none. -/
def loopError {α : Type} (v : Value) (what : String) : Run α := do
  raiseHere ("bad 'for' ".toUTF8 ++ what.toUTF8 ++ " (number expected, got ".toUTF8 ++
    (← typeNameOf v) ++ ")".toUTF8)

/-- The bound of a loop over integers: the last integer within the limit, or nothing if there is no
integer on the side of the limit that the loop goes to. -/
def loopLimit (limit : Value) (step : Int64) : Run (Option Int64) := do
  match limit.asNumeral? with
  | none => loopError limit "limit"
  | some (.int n) => return some n
  | some (.double x) =>
    let whole := if step < 0 then Binary64.ceil? x else Binary64.floor? x
    match whole.bind Binary64.int64? with
    | some n => return some n
    | none =>
      if x > 0 then return if step < 0 then none else some Int64.maxValue
      else return if step > 0 then none else some Int64.minValue

/-- The number of further rounds of a loop from `first` to `last`. -/
def roundsOf (first last step : Int64) : UInt64 :=
  if step > 0 then
    let distance := last.toUInt64 - first.toUInt64
    if step == 1 then distance else distance / step.toUInt64
  else (first.toUInt64 - last.toUInt64) / ((-(step + 1)).toUInt64 + 1)

/-- Prepares a counting loop. Over integers the number of further rounds takes the place of the
limit. -/
def forPrepStep (a target : Nat) : Run Request := do
  let first ← register a
  let limit ← register (a + 1)
  let step ← register (a + 2)
  let skip : Run Request := do
    modify fun m => { m with pc := target }
    return .go
  match first, step with
  | .int i, .int s =>
    if s == 0 then raiseHere "'for' step is zero".toUTF8
    match ← loopLimit limit s with
    | none => skip
    | some last =>
      if if s > 0 then i > last else i < last then skip
      else
        setRegister (a + 1) (.int (roundsOf i last s).toInt64)
        setRegister (a + 3) (.int i)
        return .go
  | first, step =>
    let toFloat (v : Value) (what : String) : Run Float := do
      match v.asNumeral? with
      | some n => return Arith.toFloat n
      | none => loopError v what
    let last ← toFloat limit "limit"
    let s ← toFloat step "step"
    let x ← toFloat first "initial value"
    if s == 0 then raiseHere "'for' step is zero".toUTF8
    if if 0 < s then last < x else x < last then skip
    else
      setRegister a (.num x)
      setRegister (a + 1) (.num last)
      setRegister (a + 2) (.num s)
      setRegister (a + 3) (.num x)
      return .go

/-- Goes to the next round of a counting loop. -/
@[inline] def forLoopStep (a target : Nat) : Run Request := do
  match ← register a, ← register (a + 1), ← register (a + 2) with
  | .int i, .int rounds, .int s =>
    if rounds == 0 then return .go
    else
      let next := Value.int (i + s)
      modify fun m =>
        let b := m.base + a
        let stack := m.stack.setIfInBounds b next
        let stack := stack.setIfInBounds (b + 1) (.int (rounds - 1))
        { m with stack := stack.setIfInBounds (b + 3) next, pc := target }
      return .go
  | .num x, .num last, .num s =>
    let x := x + s
    if if 0 < s then x ≤ last else last ≤ x then
      setRegister a (.num x)
      setRegister (a + 3) (.num x)
      modify fun m => { m with pc := target }
    return .go
  | _, _, _ => return .go

/-- Notes that the variable in a register is to be closed. -/
def markToClose (a : Nat) : Run Unit := do
  let v ← register a
  if v.truthy then
    let h ← metamethod v Event.close
    if h.isNil then
      let m ← get
      let name := (m.closure.proto.localAt? a (m.pc - 1)).getD "?".toUTF8
      raiseHere ("variable '".toUTF8 ++ name ++ "' got a non-closable value".toUTF8)
    modify fun m => { m with toClose := (m.base + a) :: m.toClose }

/-- Calls the iterator of a loop with its state and its control variable. -/
def genericCallStep (a count : Nat) : Run Request := do
  let m ← get
  let b := m.base + a
  modify fun m => { m with stack := copySlots m.stack b (b + 4) 3 }
  callSlot maxPassedOn (b + 4) 2 (.results (b + 4) (some count)) (← topDepth) false m.pc

/-! ### Constructors -/

/-- Makes a function of the program. -/
def closureStep (a index : Nat) : Run Request := do
  let m ← get
  let proto := m.closure.proto.children.getD index default
  let upvalues ← proto.upvalues.mapM fun (source : UpvalueSource) =>
    if source.fromRegister then captureSlot (m.base + source.index)
    else upvalueCell source.index
  charge (32 + 8 * upvalues.size)
  let id ← freshId
  setRegister a (.closure ⟨id, proto, upvalues⟩)
  return .go

/-- Stores list items into a table. -/
def setListStep (a : Nat) (count : Option Nat) (offset : Nat) : Run Request := do
  let first := (← get).base + a + 1
  let n ← countFrom count first
  let vs ← slots first n
  match ← register a with
  | .table r =>
    modifyTable r fun t =>
      let t := match count with
        | some _ => t
        | none => t.growArray (offset + n)
      t.setSequence offset vs
    return .go
  | _ => return .go

/-! ### The next instruction -/

/-- Carries out an instruction. -/
@[inline] def perform (i : Instr) : Run Request := do
  match i with
  | .move a b =>
    setRegister a (← register b)
    return .go
  | .load a l =>
    setRegister a (.ofLiteral l)
    return .go
  | .loadFalseSkip a =>
    setRegister a (.bool false)
    modify fun m => { m with pc := m.pc + 1 }
    return .go
  | .loadNil a count =>
    clearSlots ((← get).base + a) count
    return .go
  | .getUpvalue a u =>
    setRegister a (← cellValue (← upvalueCell u))
    return .go
  | .setUpvalue u a =>
    setCell (← upvalueCell u) (← register a)
    return .go
  | .getUpField a u key => readElement (← cellValue (← upvalueCell u)) (.str key) a (.upvalue u)
  | .getIndex a t k => readElement (← register t) (← register k) a (.register t)
  | .getInt a t n => readElement (← register t) (.int n) a (.register t)
  | .getField a t key => readElement (← register t) (.str key) a (.register t)
  | .setUpField u key x =>
    writeElement (← cellValue (← upvalueCell u)) (.str key) (← operand x) (.upvalue u)
  | .setIndex t k x => writeElement (← register t) (← register k) (← operand x) (.register t)
  | .setInt t n x => writeElement (← register t) (.int n) (← operand x) (.register t)
  | .setField t key x => writeElement (← register t) (.str key) (← operand x) (.register t)
  | .newTable a arraySize slots =>
    let r ← newTable (Table.withRoom arraySize slots)
    setRegister a (.table r)
    return .go
  | .self a b key =>
    let object ← register b
    setRegister (a + 1) object
    readElement object (.str key) a (.register b)
  | .arith op a x y => arithStep op a x y
  | .unary op a b =>
    let dest := (← get).base + a
    settle (← unary op (← register b) (.register b)) dest
  | .not a b =>
    setRegister a (.bool !(← register b).truthy)
    return .go
  | .concat a count => concatFrom ((← get).base + a) count
  | .close a => closeFrom ((← get).base + a) none
  | .toBeClosed a =>
    markToClose a
    return .go
  | .jump target =>
    modify fun m => { m with pc := target }
    return .go
  | .compare op x y expected =>
    let v ← operand x
    let w ← operand y
    match v, w with
    | .int m, .int n =>
      let holds := match op with
        | .equal => m == n
        | .less => m < n
        | .lessEqual => m ≤ n
      branch (holds == expected)
      return .go
    | v, w => compareStep op v w expected
  | .test a expected =>
    branch ((← register a).truthy == expected)
    return .go
  | .testSet a b expected =>
    let v ← register b
    if v.truthy == expected then
      setRegister a v
      branch true
    else branch false
    return .go
  | .call a args results =>
    let func := (← get).base + a
    let count ← countFrom args (func + 1)
    callSlot maxPassedOn func count (.results func results) (← topDepth) false (← get).pc
  | .tailCall a args =>
    let func := (← get).base + a
    tailCallStep maxPassedOn func (← countFrom args (func + 1))
  | .ret a count =>
    let first := (← get).base + a
    returnStep first (← countFrom count first)
  | .forLoop a target => forLoopStep a target
  | .forPrep a target => forPrepStep a target
  | .genericPrep a target =>
    markToClose (a + 3)
    modify fun m => { m with pc := target }
    return .go
  | .genericCall a count => genericCallStep a count
  | .genericLoop a target =>
    let v ← register (a + 4)
    unless v.isNil do
      setRegister (a + 2) v
      modify fun m => { m with pc := target }
    return .go
  | .setList a count offset => setListStep a count offset
  | .closure a index => closureStep a index
  | .vararg a count => varargStep a count
  | .varargPrep => return .go

/-- Carries out the next instruction. -/
def step : Run Request := do
  let m ← get
  let i := m.code.getD m.pc .varargPrep
  set { m with pc := m.pc + 1 }
  perform i

end PixelHost.Lua.Run
