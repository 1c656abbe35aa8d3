import PixelHost.Lua.Arith
import PixelHost.Lua.Call

/-!
# Operations on values

Reading and writing elements, arithmetic, comparison and length, with the metamethods that extend
them. Each operation either has its result at once or names the function that is to be called for
it, so that an instruction can start that call as an activation and a library function can run it to
its end.

## Main definitions

* `Lua.Run.lookUp`, `Lua.Run.assign` — elements.
* `Lua.Run.arithmetic`, `Lua.Run.unary` — operators.
* `Lua.Run.comparison` — order and equality.
-/

namespace PixelHost.Lua

/-- Where an operand of an instruction stands. -/
inductive Source where
  | register (r : Nat)
  | upvalue (u : Nat)
  | unknown
  deriving Inhabited

/-- The result of an operation, or the call that gives it. -/
inductive Outcome where
  | value (v : Value)
  | call (f : Value) (args : Array Value)
  deriving Inhabited

/-- The result of a comparison, or the call whose result decides it; `expected` tells which result
means that the comparison holds. -/
inductive Verdict where
  | known (holds : Bool)
  | ask (f x y : Value) (expected : Bool)
  deriving Inhabited

/-- Where an operand stands. -/
@[inline] def Operand.source : Operand → Source
  | .reg r => .register r
  | .lit _ => .unknown

/-- How often the reading or writing of an element may be passed on to another value. -/
def maxPassing : Nat := 2000

namespace Run

/-- The origin of an operand of the running function. -/
def originOf (source : Source) : Run (Option Origin) := do
  match source with
  | .register r => registerOrigin? r
  | .upvalue u =>
    return some ⟨"upvalue", ((← get).closure.proto.upvalues.getD u default).name⟩
  | .unknown => return none

/-! ### Elements -/

/-- The element of a value at a key, passed on at most `n` times. -/
def lookUpFor (n : Nat) (v key : Value) (source : Source) : Run Outcome := do
  match n with
  | 0 => raiseHere "'__index' chain too long; possibly a loop".toUTF8
  | n + 1 =>
    let h ← match v with
      | .table r =>
        let t ← tableAt r
        let found := t.get key
        if !found.isNil then return .value found
        match t.metatable with
        | none => return .value .nil
        | some mt =>
          let h := (← tableAt mt).getStr Event.index
          if h.isNil then return .value .nil
          pure h
      | v =>
        let h ← metamethod v Event.index
        if h.isNil then typeError v "index" (← originOf source)
        pure h
    if h.isFunction then return .call h #[v, key]
    else lookUpFor n h key .unknown

/-- The element of a value at a key. -/
def lookUp (v key : Value) (source : Source) : Run Outcome := lookUpFor maxPassing v key source

/-- A key must be usable for an element that is new. -/
def checkKey (key : Value) : Run Unit := do
  match key with
  | .nil => raiseHere "table index is nil".toUTF8
  | .num x => if x.isNaN then raiseHere "table index is NaN".toUTF8
  | _ => return

/-- Assigns the element of a value at a key, passed on at most `n` times; gives the call that is to
do it, if there is one. -/
def assignFor (n : Nat) (v key new : Value) (source : Source) :
    Run (Option (Value × Array Value)) := do
  match n with
  | 0 => raiseHere "'__newindex' chain too long; possibly a loop".toUTF8
  | n + 1 =>
    let h ← match v with
      | .table r =>
        let t ← tableAt r
        match t.metatable with
        | none =>
          checkKey key
          rawSet r key new
          return none
        | some mt =>
          let mt ← tableAt mt
          let h := if (t.get key).isNil then mt.getStr Event.newIndex else .nil
          if h.isNil then
            checkKey key
            rawSet r key new
            return none
          pure h
      | v =>
        let h ← metamethod v Event.newIndex
        if h.isNil then typeError v "index" (← originOf source)
        pure h
    if h.isFunction then return some (h, #[v, key, new])
    else assignFor n h key new .unknown

/-- Assigns the element of a value at a key; gives the call that is to do it, if there is one. -/
def assign (v key new : Value) (source : Source) : Run (Option (Value × Array Value)) :=
  assignFor maxPassing v key new source

/-! ### Arithmetic -/

/-- An arithmetic operator on two numbers where it cannot fail; `nil` in all other cases. -/
@[inline] def quickArith (op : ArithOp) (x y : Value) : Value :=
  match x, y with
  | .int m, .int n =>
    match op with
    | .add => .int (m + n)
    | .sub => .int (m - n)
    | .mul => .int (m * n)
    | .div => .num (m.toFloat / n.toFloat)
    | .mod => if n == 0 then .nil else .int (Arith.floorMod m n)
    | .floorDiv => if n == 0 then .nil else .int (Arith.floorDiv m n)
    | .pow => .num (Arith.power m.toFloat n.toFloat)
    | op => .int (op.evalBits m n)
  | .num a, .num b => if op.isBitwise then .nil else .num (op.evalFloat a b)
  | .int m, .num b => if op.isBitwise then .nil else .num (op.evalFloat m.toFloat b)
  | .num a, .int n => if op.isBitwise then .nil else .num (op.evalFloat a n.toFloat)
  | _, _ => .nil

/-- Stops because one of two operands is no number. -/
def operandError {α : Type} (x y : Value) (sx sy : Source) (operation : String) : Run α := do
  match x.numeral? with
  | some _ => typeError y operation (← originOf sy)
  | none => typeError x operation (← originOf sx)

/-- Stops because one of two numbers is not an integer. -/
def integerError {α : Type} (x : Value) (sx sy : Source) : Run α := do
  let bad := match x.numeral? with
    | some n => (Arith.toInt64? n).isNone
    | none => true
  let origin ← originOf (if bad then sx else sy)
  raiseHere ("number".toUTF8 ++ Origin.textOf origin ++ " has no integer representation".toUTF8)

/-- The metamethod of the first of two values, or else of the second. -/
def binaryMetamethod (x y : Value) (event : Bytes) : Run Value := do
  let h ← metamethod x event
  if h.isNil then metamethod y event else return h

/-- Stops because two numbers have no result. -/
def arithError {α : Type} (fault : ArithFault) (x : Value) (sx sy : Source) : Run α := do
  match fault with
  | .floorDivByZero => raiseHere "attempt to perform 'n//0'".toUTF8
  | .moduloByZero => raiseHere "attempt to perform 'n%0'".toUTF8
  | .noInteger => integerError x sx sy

/-- An arithmetic operator on two values. -/
def arithmetic (op : ArithOp) (x y : Value) (sx sy : Source) : Run Outcome := do
  let numbers := match x.numeral?, y.numeral? with
    | some m, some n => some (op.eval m n)
    | _, _ => none
  match numbers with
  | some (.ok n) => return .value (.ofNumeral n)
  | some (.error .floorDivByZero) => arithError .floorDivByZero x sx sy
  | some (.error .moduloByZero) => arithError .moduloByZero x sx sy
  | _ =>
    let h ← binaryMetamethod x y (Event.arith op)
    if !h.isNil then return .call h #[x, y]
    match numbers with
    | some (.error fault) => arithError fault x sx sy
    | _ =>
      operandError x y sx sy
        (if op.isBitwise then "perform bitwise operation on" else "perform arithmetic on")

/-- A unary operator on a value. -/
def unary (op : UnaryOp) (v : Value) (source : Source) : Run Outcome := do
  match op, v with
  | .minus, .int n => return .value (.int (-n))
  | .minus, .num x => return .value (.num (-x))
  | .minus, v =>
    let h ← metamethod v Event.unm
    if h.isNil then typeError v "perform arithmetic on" (← originOf source)
    return .call h #[v, v]
  | .bitNot, v =>
    match v.numeral? with
    | some n =>
      match Arith.toInt64? n with
      | some n => return .value (.int (~~~n))
      | none => integerError v source source
    | none =>
      let h ← metamethod v Event.bnot
      if h.isNil then typeError v "perform bitwise operation on" (← originOf source)
      return .call h #[v, v]
  | .length, .str s => return .value (.ofNat s.size)
  | .length, v =>
    let h ← metamethod v Event.len
    if !h.isNil then return .call h #[v, v]
    match v with
    | .table r => return .value (.ofNat (← tableAt r).length)
    | v => typeError v "get length of" (← originOf source)

/-! ### Comparison -/

/-- Stops because two values cannot be compared. -/
def compareError {α : Type} (x y : Value) : Run α := do
  let a ← typeNameOf x
  let b ← typeNameOf y
  if a == b then raiseHere ("attempt to compare two ".toUTF8 ++ a ++ " values".toUTF8)
  else raiseHere ("attempt to compare ".toUTF8 ++ a ++ " with ".toUTF8 ++ b)

/-- A comparison of two values. A missing `≤` is made from `<` the other way round. -/
def comparison (op : CompareOp) (x y : Value) : Run Verdict := do
  match op with
  | .equal =>
    if x.rawEqual y then return .known true
    match x, y with
    | .table _, .table _ =>
      let h ← binaryMetamethod x y Event.eq
      return if h.isNil then .known false else .ask h x y true
    | _, _ => return .known false
  | .less =>
    match x, y with
    | .str s, .str t => return .known (s.lt t)
    | _, _ =>
      match x.numeral?, y.numeral? with
      | some m, some n => return .known (Arith.less m n)
      | _, _ =>
        let h ← binaryMetamethod x y Event.lt
        if h.isNil then compareError x y else return .ask h x y true
  | .lessEqual =>
    match x, y with
    | .str s, .str t => return .known (s.le t)
    | _, _ =>
      match x.numeral?, y.numeral? with
      | some m, some n => return .known (Arith.lessEqual m n)
      | _, _ =>
        let h ← binaryMetamethod x y Event.le
        if !h.isNil then return .ask h x y true
        let h ← binaryMetamethod y x Event.lt
        if h.isNil then compareError x y else return .ask h y x false

end Run

end PixelHost.Lua
