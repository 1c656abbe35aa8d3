import PixelHost.Lua.Scope

/-!
# Phrases: expressions and functions

The reading of expressions, table constructors, calls and function bodies. What is nested inside a
phrase is read by a given `Reader`; each reader reads one level less deep than the one around it, so
that reading ends on every source text.

## Main definitions

* `Lua.Reader` — how the phrases one level further in are read.
* `Lua.Compile.subexpression` — an expression whose operators bind tighter than a limit.
* `Lua.Compile.suffixed` — a variable, a field or a call.
* `Lua.Compile.functionBody` — a function from its parameters on.
-/

namespace PixelHost.Lua

/-- How the phrases one level further in are read. -/
structure Reader where
  statement : Compile Unit
  /-- An expression up to the first operator that does not bind tighter than the limit; that
  operator is given too. -/
  subexpression : Nat → Compile (Expr × Option BinaryOp)
  /-- What follows the variables of an assignment, the last one first. -/
  restOfAssignment : List Expr → Compile Unit

namespace BinaryOp

/-- The binary operator that a token stands for. -/
def ofToken? : Token → Option BinaryOp
  | .sign s =>
    match s with
    | .plus => some (.arith .add)
    | .minus => some (.arith .sub)
    | .star => some (.arith .mul)
    | .percent => some (.arith .mod)
    | .caret => some (.arith .pow)
    | .slash => some (.arith .div)
    | .floorDiv => some (.arith .floorDiv)
    | .amp => some (.arith .bitAnd)
    | .bar => some (.arith .bitOr)
    | .tilde => some (.arith .bitXor)
    | .shiftLeft => some (.arith .shiftLeft)
    | .shiftRight => some (.arith .shiftRight)
    | .concat => some .concat
    | .equal => some (.compare .equal)
    | .notEqual => some .notEqual
    | .less => some (.compare .less)
    | .lessEqual => some (.compare .lessEqual)
    | .greater => some .greater
    | .greaterEqual => some .greaterEqual
    | _ => none
  | .word .and => some .and
  | .word .or => some .or
  | _ => none

/-- How tightly an operator binds what stands on its left and on its right. -/
def priority : BinaryOp → Nat × Nat
  | .arith .add | .arith .sub => (10, 10)
  | .arith .mul | .arith .mod | .arith .div | .arith .floorDiv => (11, 11)
  | .arith .pow => (14, 13)
  | .arith .bitAnd => (6, 6)
  | .arith .bitXor => (5, 5)
  | .arith .bitOr => (4, 4)
  | .arith .shiftLeft | .arith .shiftRight => (7, 7)
  | .concat => (9, 8)
  | .compare _ | .notEqual | .greater | .greaterEqual => (3, 3)
  | .and => (2, 2)
  | .or => (1, 1)

end BinaryOp

/-- The unary operator that a token stands for. -/
def PrefixOp.ofToken? : Token → Option PrefixOp
  | .word .not => some .not
  | .sign .minus => some (.unary .minus)
  | .sign .tilde => some (.unary .bitNot)
  | .sign .hash => some (.unary .length)
  | _ => none

/-- How tightly a unary operator binds. -/
def unaryPriority : Nat := 12

namespace Compile

/-- The number of rounds that suffice for any loop that reads a token in each round. -/
def rounds : Compile Nat := return (← get).source.size + 2

/-- Repeats a step on a value until the step is done, at most `n` times. -/
def loop {σ : Type} (step : σ → Compile (ForInStep σ)) : Nat → σ → Compile σ
  | 0, s => return s
  | n + 1, s => do
    match ← step s with
    | .done s => return s
    | .yield s => loop step n s

/-- Repeats a step on a value until the step is done. Each repetition reads a token. -/
def repeatWith {σ : Type} (s : σ) (step : σ → Compile (ForInStep σ)) : Compile σ := do
  loop step (← rounds) s

/-- Repeats a step as long as it says so. Each repetition reads a token. -/
def repeatWhile (step : Compile Bool) : Compile Unit :=
  repeatWith () fun _ => do
    if ← step then return .yield () else return .done ()

/-- The current token ends a block. The word `until` does so only if asked for. -/
def blockFollows (withUntil : Bool) : Compile Bool := do
  match ← current with
  | .word .else | .word .elseif | .word .end | .eof => return true
  | .word .until => return withUntil
  | _ => return false

/-- Reads the statements of a block; a `return` is the last one. -/
def statements (inner : Reader) : Compile Unit :=
  repeatWhile do
    if ← blockFollows true then return false
    let isReturn ← isAt (.word .return)
    inner.statement
    return !isReturn

/-- Reads an expression. -/
def expression (inner : Reader) : Compile Expr := return (← inner.subexpression 0).1

/-- A name as a string. -/
def nameLiteral : Compile Expr := return { kind := .lit (.str (← expectName)) }

/-- Reads `.name` or `:name` after a table. -/
def fieldSelector (table : Expr) : Compile Expr := do
  let table ← toRegisterOrUpvalue table
  advance
  let key ← nameLiteral
  index table key

/-- Reads a key in brackets. -/
def bracketKey (inner : Reader) : Compile Expr := do
  advance
  let key ← toValue (← expression inner)
  expect (.sign .rightBracket)
  return key

/-- Reads a list of expressions; all but the last one are placed in registers. The number of
expressions comes with the last one. -/
def expressionList (inner : Reader) : Compile (Nat × Expr) := do
  let first ← expression inner
  repeatWith (1, first) fun (n, e) => do
    if ← accept (.sign .comma) then
      discard (toNextRegister e)
      let e ← expression inner
      return .yield (n + 1, e)
    else return .done (n, e)

/-! ### Table constructors -/

/-- A table constructor that is being read. -/
structure Constructor where
  table : Nat
  /-- The last list item, not placed yet. -/
  last : Expr := { kind := .void }
  keyed : Nat := 0
  stored : Nat := 0
  waiting : Nat := 0
  deriving Inhabited

/-- Appends the storing of list items into a table. -/
def emitSetList (table : Nat) (count : Option Nat) (offset : Nat) : Compile Unit := do
  emit' (.setList table count offset)
  setFree (table + 1)

/-- Reads a field with a key. -/
def keyedField (inner : Reader) (c : Constructor) : Compile Constructor := do
  let free ← firstFree
  let key ← match ← current with
    | .name _ => nameLiteral
    | _ => bracketKey inner
  expect (.sign .assign)
  let target ← index { kind := .fixed c.table } key
  store target (← expression inner)
  setFree free
  return { c with keyed := c.keyed + 1 }

/-- Reads a list item. -/
def listItem (inner : Reader) (c : Constructor) : Compile Constructor := do
  let e ← expression inner
  return { c with last := e, waiting := c.waiting + 1 }

/-- Places the last list item, and stores the items if there are enough. -/
def placeItem (c : Constructor) : Compile Constructor := do
  match c.last.kind with
  | .void => return c
  | _ =>
    discard (toNextRegister c.last)
    let c := { c with last := { kind := .void } }
    if c.waiting == itemsPerFlush then
      emitSetList c.table (some c.waiting) c.stored
      return { c with stored := c.stored + c.waiting, waiting := 0 }
    else return c

/-- Stores the remaining list items; the last one may give several values. -/
def storeLastItems (c : Constructor) : Compile Constructor := do
  if c.waiting == 0 then return c
  else if c.last.isMulti then
    setResults c.last none
    emitSetList c.table none c.stored
    return { c with stored := c.stored + c.waiting - 1 }
  else
    match c.last.kind with
    | .void => pure ()
    | _ => discard (toNextRegister c.last)
    emitSetList c.table (some c.waiting) c.stored
    return { c with stored := c.stored + c.waiting }

/-- Reads a table constructor. -/
def constructor (inner : Reader) : Compile Expr := do
  let openLine ← line
  let r ← firstFree
  let pc ← emit (.newTable r 0 0)
  reserve 1
  expect (.sign .leftBrace)
  let c ← repeatWith { table := r : Constructor } fun c => do
    if ← isAt (.sign .rightBrace) then return .done c
    let c ← placeItem c
    let c ← match ← current with
      | .name _ =>
        if (← lookahead) == .sign .assign then keyedField inner c else listItem inner c
      | .sign .leftBracket => keyedField inner c
      | _ => listItem inner c
    if ← accept (.sign .comma) then return .yield c
    else if ← accept (.sign .semicolon) then return .yield c
    else return .done c
  expectClosing (.sign .rightBrace) (.sign .leftBrace) openLine
  let c ← storeLastItems c
  setInstr pc (.newTable r c.stored c.keyed)
  return { kind := .fixed r }

/-! ### Functions -/

/-- Begins a function defined at a line. -/
def openFunction (lineDefined : Nat) : Compile Unit := do
  let s ← get
  let f : FunctionState := {
    proto := { lineDefined, chunk := s.fn.proto.chunk }
    firstVariable := s.locals.size
    firstLabel := s.labels.size }
  set { s with fn := f, outer := s.fn :: s.outer }
  enterBlock false

/-- Ends the function and goes back to the one around it. -/
def closeFunction : Compile Prototype := do
  emit' (.ret (← activeRegisters) (some 0))
  leaveBlock
  let s ← get
  match s.outer with
  | f :: outer => set { s with fn := f, outer }
  | [] => pure ()
  return { s.fn.proto with bytes := s.fn.proto.measure }

/-- The function takes any number of arguments after its parameters. -/
def setVararg : Compile Unit := do
  modifyProto fun p => { p with isVararg := true }
  emit' .varargPrep

/-- Reads the parameters of a function. -/
def parameters : Compile Unit := do
  let (count, isVararg) ← if ← isAt (.sign .rightParen) then pure (0, false)
    else repeatWith (0, false) fun (count, _) => do
      match ← current with
      | .name name =>
        advance
        discard (declare name)
        if ← accept (.sign .comma) then return .yield (count + 1, false)
        else return .done (count + 1, false)
      | .sign .dots =>
        advance
        return .done (count, true)
      | _ => fail .nameOrDotsExpected
  activate count
  let active := (← fn).activeCount
  modifyProto fun p => { p with parameters := active }
  if isVararg then setVararg
  reserve active

/-- Reads a function from its parameters on. -/
def functionBody (inner : Reader) (isMethod : Bool) (lineDefined : Nat) : Compile Expr := do
  openFunction lineDefined
  expect (.sign .leftParen)
  if isMethod then
    declareHidden "self"
    activate 1
  parameters
  expect (.sign .rightParen)
  statements inner
  expectClosing (.word .end) (.word .function) lineDefined
  let proto ← closeFunction
  let child := (← fn).proto.children.size
  modifyProto fun p => { p with children := p.children.push proto }
  let pc ← emit (.closure 0 child)
  toNextRegister { kind := .pending pc }

/-! ### Variables, fields and calls -/

/-- Reads the arguments of a call of the function in the register of `f`. -/
def callArguments (inner : Reader) (f : Expr) : Compile Expr := do
  let openLine ← line
  let args ← match ← current with
    | .sign .leftParen =>
      advance
      let args ← if ← isAt (.sign .rightParen) then pure { kind := .void }
        else
          let (_, e) ← expressionList inner
          if e.isMulti then setResults e none
          pure e
      expectClosing (.sign .rightParen) (.sign .leftParen) openLine
      pure args
    | .sign .leftBrace => constructor inner
    | .string s _ _ =>
      advance
      pure { kind := .lit (.str s) }
    | _ => fail .argumentsExpected
  let base := (registerOf? f).getD 0
  let count ← if args.isMulti then pure none
    else
      match args.kind with
      | .void => pure ()
      | _ => discard (toNextRegister args)
      pure (some ((← firstFree) - (base + 1)))
  let pc ← emit (.call base count (some 1))
  fixLine openLine
  setFree (base + 1)
  return { kind := .call pc }

/-- Reads a name or an expression in parentheses. -/
def primary (inner : Reader) : Compile Expr := do
  match ← current with
  | .name name =>
    advance
    nameToExpr name
  | .sign .leftParen =>
    let openLine ← line
    advance
    let e ← expression inner
    expectClosing (.sign .rightParen) (.sign .leftParen) openLine
    discharge e
  | _ => fail .unexpectedSymbol

/-- Reads a variable, a field or a call. -/
def suffixed (inner : Reader) : Compile Expr := do
  let first ← primary inner
  repeatWith first fun e => do
    match ← current with
    | .sign .dot => return .yield (← fieldSelector e)
    | .sign .leftBracket =>
      let table ← toRegisterOrUpvalue e
      let key ← bracketKey inner
      return .yield (← index table key)
    | .sign .colon =>
      advance
      let name ← expectName
      let f ← selfCall e name
      return .yield (← callArguments inner f)
    | .sign .leftParen | .string _ _ _ | .sign .leftBrace =>
      let f ← toNextRegister e
      return .yield (← callArguments inner f)
    | _ => return .done e

/-- Reads an expression without operators. -/
def simple (inner : Reader) : Compile Expr := do
  let literal (l : Literal) : Compile Expr := do
    advance
    return { kind := .lit l }
  match ← current with
  | .number (.int n) _ => literal (.int n)
  | .number (.double x) _ => literal (.num x)
  | .string s _ _ => literal (.str s)
  | .word .nil => literal .nil
  | .word .true => literal (.bool true)
  | .word .false => literal (.bool false)
  | .sign .dots =>
    unless (← fn).proto.isVararg do fail .varargOutside
    let pc ← emit (.vararg 0 (some 0))
    advance
    return { kind := .vararg pc }
  | .sign .leftBrace => constructor inner
  | .word .function =>
    advance
    functionBody inner false (← line)
  | _ => suffixed inner

/-- Reads an expression whose operators bind tighter than a limit; the operator that ends it is
given too. -/
def subexpression (inner : Reader) (limit : Nat) : Compile (Expr × Option BinaryOp) := do
  let first ← match PrefixOp.ofToken? (← current) with
    | some op =>
      let opLine ← line
      advance
      let (e, _) ← inner.subexpression unaryPriority
      applyUnary op e opLine
    | none => simple inner
  let next := BinaryOp.ofToken? (← current)
  repeatWith (first, next) fun (e, next) => do
    match next with
    | some op =>
      if op.priority.1 > limit then
        let opLine ← line
        advance
        let e ← leftOperand op e
        let (e₂, next) ← inner.subexpression op.priority.2
        return .yield (← applyBinary op e e₂ opLine, next)
      else return .done (e, next)
    | none => return .done (e, next)

end Compile

end PixelHost.Lua
