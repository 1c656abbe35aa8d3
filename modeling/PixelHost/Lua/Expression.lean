import PixelHost.Lua.Arith
import PixelHost.Lua.Compiler

/-!
# Compiling expressions

While an expression is read its value is not placed at once: a literal may become an operand, a
variable may turn out to be assigned, a comparison may steer a jump. A description says where the
value is or how it will be made, and the operations here turn a description into instructions when
its use is known.

A description also carries the jumps that leave the expression early because it is already known
to be true or false.

## Main definitions

* `Lua.ExprKind`, `Lua.Expr` — descriptions.
* `Lua.Compile.toNextRegister`, `Lua.Compile.toAnyRegister`, `Lua.Compile.toOperand` — placing a
  value.
* `Lua.Compile.store` — assignment to a described variable.
* `Lua.Compile.goIfTrue`, `Lua.Compile.goIfFalse` — conditions.
* `Lua.Compile.applyUnary`, `Lua.Compile.leftOperand`, `Lua.Compile.applyBinary` — operators.
-/

namespace PixelHost.Lua

/-- Where a value is, or how it will be made. -/
inductive ExprKind where
  | void
  | lit (l : Literal)
  /-- The value is in a register. -/
  | fixed (r : Nat)
  /-- A local variable, by register and by its index in the function. -/
  | local (r index : Nat)
  | upvalue (u : Nat)
  /-- A constant known at compile time, by its position among all variables. -/
  | compileTime (position : Nat)
  | indexed (table key : Nat)
  | upField (u : Nat) (key : Bytes)
  | intIndexed (table : Nat) (key : Int64)
  | fieldIndexed (table : Nat) (key : Bytes)
  /-- A test followed by the jump at this position. -/
  | jump (pc : Nat)
  /-- The instruction at this position makes the value, in a register to be chosen. -/
  | pending (pc : Nat)
  | call (pc : Nat)
  | vararg (pc : Nat)
  deriving DecidableEq, Inhabited

/-- The description of an expression, with the jumps that leave it because it is true or false. -/
structure Expr where
  kind : ExprKind
  whenTrue : List Nat := []
  whenFalse : List Nat := []
  deriving DecidableEq, Inhabited

namespace Expr

/-- Some jumps leave the expression early. -/
@[inline] def hasJumps (e : Expr) : Bool := !(e.whenTrue.isEmpty && e.whenFalse.isEmpty)

/-- The number that the expression is written as. -/
def number? (e : Expr) : Option Numeral :=
  if e.hasJumps then none
  else match e.kind with
    | .lit (.int n) => some (.int n)
    | .lit (.num x) => some (.double x)
    | _ => none

/-- The literal that the expression is written as. -/
def literal? (e : Expr) : Option Literal :=
  if e.hasJumps then none
  else match e.kind with
    | .lit l => some l
    | _ => none

/-- The expression may give any number of values. -/
def isMulti (e : Expr) : Bool :=
  match e.kind with
  | .call _ | .vararg _ => true
  | _ => false

/-- The expression can be assigned to, or is a constant that looks so. -/
def isVariable (e : Expr) : Bool :=
  match e.kind with
  | .local _ _ | .upvalue _ | .compileTime _ | .indexed _ _ | .upField _ _ | .intIndexed _ _
  | .fieldIndexed _ _ => true
  | _ => false

/-- The expression is an element of a table. -/
def isIndexed (e : Expr) : Bool :=
  match e.kind with
  | .indexed _ _ | .upField _ _ | .intIndexed _ _ | .fieldIndexed _ _ => true
  | _ => false

/-- The literal of a number. -/
def ofNumeral : Numeral → ExprKind
  | .int n => .lit (.int n)
  | .double x => .lit (.num x)

end Expr

/-- The binary operators. -/
inductive BinaryOp where
  | arith (op : ArithOp)
  | concat
  | compare (op : CompareOp)
  | notEqual
  | greater
  | greaterEqual
  | and
  | or
  deriving DecidableEq, Repr, Inhabited

/-- The unary operators. -/
inductive PrefixOp where
  | unary (op : UnaryOp)
  | not
  deriving DecidableEq, Repr, Inhabited

/-- The instruction with another destination. -/
def Instr.withDestination (i : Instr) (r : Nat) : Instr :=
  match i with
  | .getUpvalue _ u => .getUpvalue r u
  | .getUpField _ u key => .getUpField r u key
  | .getIndex _ t k => .getIndex r t k
  | .getInt _ t k => .getInt r t k
  | .getField _ t k => .getField r t k
  | .arith op _ x y => .arith op r x y
  | .unary op _ b => .unary op r b
  | .not _ b => .not r b
  | .concat _ n => .concat r n
  | .closure _ p => .closure r p
  | .vararg _ n => .vararg r n
  | .loadFalseSkip _ => .loadFalseSkip r
  | .load _ l => .load r l
  | i => i

namespace Compile

/-- Gives a call or a vararg expression a number of results. -/
def setResults (e : Expr) (count : Option Nat) : Compile Unit := do
  match e.kind with
  | .call pc =>
    match ← instrAt pc with
    | .call a args _ => setInstr pc (.call a args count)
    | _ => return
  | .vararg pc =>
    setInstr pc (.vararg (← firstFree) count)
    reserve 1
  | _ => return

/-- A call or a vararg expression that is used for one value. -/
def setOneResult (e : Expr) : Compile Expr := do
  match e.kind with
  | .call pc =>
    match ← instrAt pc with
    | .call a args _ =>
      setInstr pc (.call a args (some 1))
      return { e with kind := .fixed a }
    | _ => return e
  | .vararg pc =>
    setInstr pc (.vararg 0 (some 1))
    return { e with kind := .pending pc }
  | _ => return e

/-- Gives back the register of an expression, if it is a temporary one. -/
def releaseExpr (e : Expr) : Compile Unit := do
  match e.kind with
  | .fixed r => releaseRegister r
  | _ => return

/-- The register that holds an expression, if it is in one. -/
def registerOf? (e : Expr) : Option Nat :=
  match e.kind with
  | .fixed r => some r
  | _ => none

/-- Gives back the registers of two expressions, the higher one first. -/
def releaseBoth (e₁ e₂ : Expr) : Compile Unit := do
  match registerOf? e₁, registerOf? e₂ with
  | some r₁, some r₂ =>
    releaseRegister (max r₁ r₂)
    releaseRegister (min r₁ r₂)
  | some r, none | none, some r => releaseRegister r
  | none, none => return

/-- An expression that is not a variable: variables are read. -/
def discharge (e : Expr) : Compile Expr := do
  match e.kind with
  | .compileTime position =>
    return { e with kind := .lit ((← get).locals.getD position default).value }
  | .local r _ => return { e with kind := .fixed r }
  | .upvalue u => return { e with kind := .pending (← emit (.getUpvalue 0 u)) }
  | .upField u key => return { e with kind := .pending (← emit (.getUpField 0 u key)) }
  | .intIndexed t n =>
    releaseRegister t
    return { e with kind := .pending (← emit (.getInt 0 t n)) }
  | .fieldIndexed t key =>
    releaseRegister t
    return { e with kind := .pending (← emit (.getField 0 t key)) }
  | .indexed t k =>
    releaseRegister (max t k)
    releaseRegister (min t k)
    return { e with kind := .pending (← emit (.getIndex 0 t k)) }
  | .call _ | .vararg _ => setOneResult e
  | _ => return e

/-- Puts the value of an expression into a register, apart from its jumps. -/
def dischargeTo (e : Expr) (r : Nat) : Compile Expr := do
  let e ← discharge e
  match e.kind with
  | .lit .nil =>
    emitNil r 1
    return { e with kind := .fixed r }
  | .lit l =>
    emit' (.load r l)
    return { e with kind := .fixed r }
  | .pending pc =>
    setInstr pc ((← instrAt pc).withDestination r)
    return { e with kind := .fixed r }
  | .fixed s =>
    if s ≠ r then emit' (.move r s)
    return { e with kind := .fixed r }
  | _ => return e

/-- Puts the value of an expression into some register, apart from its jumps. -/
def dischargeToAny (e : Expr) : Compile Expr := do
  match e.kind with
  | .fixed _ => return e
  | _ =>
    reserve 1
    dischargeTo e ((← firstFree) - 1)

/-- Puts the value of an expression into a register, whichever way it is reached. -/
def toRegister (e : Expr) (r : Nat) : Compile Expr := do
  let e ← dischargeTo e r
  let e := match e.kind with
    | .jump pc => { e with whenTrue := pc :: e.whenTrue }
    | _ => e
  if e.hasJumps then
    let needed ← someNeedValue e.whenTrue
    let needed ← if needed then pure true else someNeedValue e.whenFalse
    let (falseAt, trueAt) ← if needed then do
        let around ← match e.kind with
          | .jump _ => pure []
          | _ => pure [← jump]
        let falseAt ← here
        emit' (.loadFalseSkip r)
        let trueAt ← here
        emit' (.load r (.bool true))
        patchHere around
        pure (falseAt, trueAt)
      else pure (0, 0)
    let final ← here
    patchBoth e.whenFalse (some r) final falseAt
    patchBoth e.whenTrue (some r) final trueAt
  return { kind := .fixed r }

/-- Puts the value of an expression into the next free register. -/
def toNextRegister (e : Expr) : Compile Expr := do
  let e ← discharge e
  releaseExpr e
  reserve 1
  toRegister e ((← firstFree) - 1)

/-- Puts the value of an expression into some register, and gives that register. -/
def toAnyRegister (e : Expr) : Compile (Expr × Nat) := do
  let e ← discharge e
  match e.kind with
  | .fixed r =>
    if !e.hasJumps then return (e, r)
    else if r ≥ (← activeRegisters) then
      let e ← toRegister e r
      return (e, r)
    else
      let e ← toNextRegister e
      return (e, (registerOf? e).getD 0)
  | _ =>
    let e ← toNextRegister e
    return (e, (registerOf? e).getD 0)

/-- Puts the value of an expression into some register, unless it is a captured variable. -/
def toRegisterOrUpvalue (e : Expr) : Compile Expr := do
  match e.kind with
  | .upvalue _ => if e.hasJumps then return (← toAnyRegister e).1 else return e
  | _ => return (← toAnyRegister e).1

/-- Makes an expression a value: it is no variable and has no jumps. -/
def toValue (e : Expr) : Compile Expr := do
  match e.kind with
  | .jump _ => return (← toAnyRegister e).1
  | _ => if e.hasJumps then return (← toAnyRegister e).1 else discharge e

/-- Makes an expression an operand: a literal, or a register. -/
def toOperand (e : Expr) : Compile (Expr × Operand) := do
  match e.literal? with
  | some l => return (e, .lit l)
  | none =>
    let (e, r) ← toAnyRegister e
    return (e, .reg r)

/-- Makes a number an operand as it is, and anything else a register. -/
def toNumberOperand (e : Expr) : Compile (Expr × Operand) := do
  match e.number? with
  | some (.int n) => return (e, .lit (.int n))
  | some (.double x) => return (e, .lit (.num x))
  | none =>
    let (e, r) ← toAnyRegister e
    return (e, .reg r)

/-- Assigns an expression to a variable. -/
def store (target value : Expr) : Compile Unit := do
  match target.kind with
  | .local r _ =>
    releaseExpr value
    discard (toRegister value r)
  | .upvalue u =>
    let (value, r) ← toAnyRegister value
    emit' (.setUpvalue u r)
    releaseExpr value
  | .upField u key =>
    let (value, x) ← toOperand value
    emit' (.setUpField u key x)
    releaseExpr value
  | .intIndexed t n =>
    let (value, x) ← toOperand value
    emit' (.setInt t n x)
    releaseExpr value
  | .fieldIndexed t key =>
    let (value, x) ← toOperand value
    emit' (.setField t key x)
    releaseExpr value
  | .indexed t k =>
    let (value, x) ← toOperand value
    emit' (.setIndex t k x)
    releaseExpr value
  | _ => return

/-- Looks a method up: the function and the object go to the next two registers. -/
def selfCall (object : Expr) (key : Bytes) : Compile Expr := do
  let (object, r) ← toAnyRegister object
  releaseExpr object
  let base ← firstFree
  reserve 2
  emit' (.self base r key)
  return { kind := .fixed base }

/-- An element of a table. The table is in a register or a captured variable. -/
def index (table key : Expr) : Compile Expr := do
  let name? : Option Bytes := match key.literal? with
    | some (.str s) => some s
    | _ => none
  let table ← match table.kind, name? with
    | .upvalue _, none => pure (← toAnyRegister table).1
    | _, _ => pure table
  match table.kind, name? with
  | .upvalue u, some s => return { kind := .upField u s }
  | kind, _ =>
    let t := match kind with
      | .local r _ | .fixed r => r
      | _ => 0
    match name?, key.number? with
    | some s, _ => return { kind := .fieldIndexed t s }
    | none, some (.int n) =>
      if 0 ≤ n && n ≤ 255 then return { kind := .intIndexed t n }
      else
        let (_, k) ← toAnyRegister key
        return { kind := .indexed t k }
    | none, _ =>
      let (_, k) ← toAnyRegister key
      return { kind := .indexed t k }

/-! ### Conditions -/

/-- Turns the test of a comparison around. -/
def negateCondition (pc : Nat) : Compile Unit := do
  let control ← controlOf pc
  match ← instrAt control with
  | .compare op x y expected => setInstr control (.compare op x y !expected)
  | _ => return

/-- Appends a test of an expression and a jump that is taken if the expression is as given. -/
def jumpOnCondition (e : Expr) (condition : Bool) : Compile Nat := do
  let plain (e : Expr) : Compile Nat := do
    let e ← dischargeToAny e
    releaseExpr e
    emit' (.testSet maxRegisters ((registerOf? e).getD 0) condition)
    jump
  match e.kind with
  | .pending pc =>
    match ← instrAt pc with
    | .not _ b =>
      dropLast
      emit' (.test b !condition)
      jump
    | _ => plain e
  | _ => plain e

/-- Goes on if the expression is true, and jumps if it is false. -/
def goIfTrue (e : Expr) : Compile Expr := do
  let e ← discharge e
  let out ← match e.kind with
    | .jump pc => do
      negateCondition pc
      pure [pc]
    | .lit .nil | .lit (.bool false) => pure [← jumpOnCondition e false]
    | .lit _ => pure []
    | _ => pure [← jumpOnCondition e false]
  patchHere e.whenTrue
  return { e with whenFalse := out ++ e.whenFalse, whenTrue := [] }

/-- Goes on if the expression is false, and jumps if it is true. -/
def goIfFalse (e : Expr) : Compile Expr := do
  let e ← discharge e
  let out ← match e.kind with
    | .jump pc => pure [pc]
    | .lit .nil | .lit (.bool false) => pure []
    | _ => pure [← jumpOnCondition e true]
  patchHere e.whenFalse
  return { e with whenTrue := out ++ e.whenTrue, whenFalse := [] }

/-- The negation of an expression. -/
def negate (e : Expr) : Compile Expr := do
  let kind ← match e.kind with
    | .lit .nil | .lit (.bool false) => pure (.lit (.bool true))
    | .lit _ => pure (.lit (.bool false))
    | .jump pc => do
      negateCondition pc
      pure e.kind
    | .pending _ | .fixed _ => do
      let e ← dischargeToAny e
      releaseExpr e
      pure (.pending (← emit (.not 0 ((registerOf? e).getD 0))))
    | k => pure k
  dropValues e.whenTrue
  dropValues e.whenFalse
  return { kind, whenTrue := e.whenFalse, whenFalse := e.whenTrue }

/-! ### Operators -/

/-- The result of a unary operator on a number that is known at compile time. -/
def foldUnary? (op : UnaryOp) (e : Expr) : Option Numeral :=
  match op, e.number? with
  | .minus, some (.int n) => some (.int (-n))
  | .minus, some (.double x) => if x.isNaN || x == 0.0 then none else some (.double (-x))
  | .bitNot, some n => (Arith.toInt64? n).map fun n => .int (~~~n)
  | _, _ => none

/-- Applies a unary operator that stands at a line. -/
def applyUnary (op : PrefixOp) (e : Expr) (opLine : Nat) : Compile Expr := do
  let e ← discharge e
  match op with
  | .not => negate e
  | .unary op =>
    match foldUnary? op e with
    | some n => return { e with kind := Expr.ofNumeral n }
    | none =>
      let (e, r) ← toAnyRegister e
      releaseExpr e
      let pc ← emit (.unary op 0 r)
      fixLine opLine
      return { e with kind := .pending pc }

/-- Prepares the left operand, before the right one is read. -/
def leftOperand (op : BinaryOp) (e : Expr) : Compile Expr := do
  let e ← discharge e
  match op with
  | .and => goIfTrue e
  | .or => goIfFalse e
  | .concat => toNextRegister e
  | .arith _ => if e.number?.isSome then return e else return (← toAnyRegister e).1
  | .compare .equal | .notEqual => return (← toOperand e).1
  | _ => if e.number?.isSome then return e else return (← toAnyRegister e).1

/-- Appends an arithmetic instruction on two operands. -/
def emitArith (op : ArithOp) (e₁ e₂ : Expr) (opLine : Nat) : Compile Expr := do
  let (e₂, y) ← toNumberOperand e₂
  let (e₁, x) ← toNumberOperand e₁
  let pc ← emit (.arith op 0 x y)
  releaseBoth e₁ e₂
  fixLine opLine
  return { e₁ with kind := .pending pc }

/-- Appends a comparison with the jump that it steers. -/
def emitCompare (op : CompareOp) (e₁ e₂ : Expr) (expected : Bool) : Compile Expr := do
  let (e₁, x) ← toOperand e₁
  let (e₂, y) ← toOperand e₂
  releaseBoth e₁ e₂
  emit' (.compare op x y expected)
  let pc ← jump
  return { e₁ with kind := .jump pc }

/-- Appends a concatenation, or makes the one right before longer. -/
def emitConcat (e₁ e₂ : Expr) (opLine : Nat) : Compile Unit := do
  let first := (registerOf? e₁).getD 0
  match ← previous? with
  | some (.concat a n) =>
    if a = first + 1 then
      releaseExpr e₂
      setInstr ((← position) - 1) (.concat first (n + 1))
    else
      emit' (.concat first 2)
      releaseExpr e₂
  | _ =>
    emit' (.concat first 2)
    releaseExpr e₂
  fixLine opLine

/-- Applies a binary operator that stands at a line, after its right operand is read. -/
def applyBinary (op : BinaryOp) (e₁ e₂ : Expr) (opLine : Nat) : Compile Expr := do
  let e₂ ← discharge e₂
  match op with
  | .arith op =>
    let folded := match e₁.number?, e₂.number? with
      | some x, some y => op.fold? x y
      | _, _ => none
    match folded with
    | some n => return { e₁ with kind := Expr.ofNumeral n }
    | none => emitArith op e₁ e₂ opLine
  | .and => return { e₂ with whenFalse := e₁.whenFalse ++ e₂.whenFalse }
  | .or => return { e₂ with whenTrue := e₁.whenTrue ++ e₂.whenTrue }
  | .concat =>
    let e₂ ← toNextRegister e₂
    emitConcat e₁ e₂ opLine
    return e₁
  | .compare .equal => emitCompare .equal e₁ e₂ true
  | .notEqual => emitCompare .equal e₁ e₂ false
  | .greater => emitCompare .less e₂ e₁ true
  | .greaterEqual => emitCompare .lessEqual e₂ e₁ true
  | .compare op => emitCompare op e₁ e₂ true

end Compile

end PixelHost.Lua
