import PixelHost.Lua.Phrase

/-!
# Statements

The reading of statements. Each statement is compiled as it is read; after it, only the registers of
the active variables are in use.

## Main definitions

* `Lua.Compile.statement` — one statement.
* `Lua.Compile.restOfAssignment` — an assignment after its first variables.
-/

namespace PixelHost.Lua.Compile

/-- Reads the statements of a block of its own. -/
def innerBlock (inner : Reader) : Compile Unit := do
  enterBlock false
  statements inner
  leaveBlock

/-! ### Assignments -/

/-- Fits the values of a list of expressions to a number of variables. -/
def adjustCount (wanted count : Nat) (last : Expr) : Compile Unit := do
  let missing := wanted - count
  if last.isMulti then
    setResults last (some (wanted + 1 - count))
  else
    match last.kind with
    | .void => pure ()
    | _ => discard (toNextRegister last)
    if missing > 0 then emitNil (← firstFree) missing
  if wanted > count then reserve missing
  else setFree ((← firstFree) - (count - wanted))

/-- A table element that is assigned to, when the variable that holds its table or its key is
assigned to as well: the element then uses the copy of that variable in the register `copy`. -/
def withCopy (assigned : ExprKind) (copy : Nat) (target : Expr) : Expr × Bool :=
  match assigned, target.kind with
  | .upvalue u, .upField t key =>
    if t == u then ({ target with kind := .fieldIndexed copy key }, true) else (target, false)
  | .local r _, .indexed t k =>
    let used := t == r || k == r
    let swap (x : Nat) : Nat := if x == r then copy else x
    ({ target with kind := .indexed (swap t) (swap k) }, used)
  | .local r _, .intIndexed t n =>
    if t == r then ({ target with kind := .intIndexed copy n }, true) else (target, false)
  | .local r _, .fieldIndexed t key =>
    if t == r then ({ target with kind := .fieldIndexed copy key }, true) else (target, false)
  | _, _ => (target, false)

/-- Saves a variable that is assigned to if an earlier variable of the assignment uses it. -/
def avoidConflict (targets : List Expr) (assigned : Expr) : Compile (List Expr) := do
  let copy ← firstFree
  let changed := targets.map (withCopy assigned.kind copy)
  if changed.any (·.2) then
    match assigned.kind with
    | .local r _ => emit' (.move copy r)
    | .upvalue u => emit' (.getUpvalue copy u)
    | _ => pure ()
    reserve 1
  return changed.map (·.1)

/-- Assigns the last registers to variables, the last one first. -/
def storeFromRegisters (targets : List Expr) : Compile Unit :=
  targets.forM fun target => do
    store target { kind := .fixed ((← firstFree) - 1) }

/-- Reads what follows the variables of an assignment, the last one first: more variables, or the
values. -/
def restOfAssignment (inner : Reader) (targets : List Expr) : Compile Unit := do
  let target := targets.headD default
  unless target.isVariable do fail .noStatement
  checkAssignable target
  if ← accept (.sign .comma) then
    let next ← suffixed inner
    let targets ← if next.isIndexed then pure targets else avoidConflict targets next
    inner.restOfAssignment (next :: targets)
  else
    expect (.sign .assign)
    let (count, last) ← expressionList inner
    if count == targets.length then
      store target (← setOneResult last)
      storeFromRegisters (targets.drop 1)
    else
      adjustCount targets.length count last
      storeFromRegisters targets

/-- Reads a call or an assignment. -/
def callOrAssignment (inner : Reader) : Compile Unit := do
  let e ← suffixed inner
  match ← current with
  | .sign .assign | .sign .comma => restOfAssignment inner [e]
  | _ =>
    match e.kind with
    | .call _ => setResults e (some 0)
    | _ => fail .noStatement

/-! ### Local variables -/

/-- Reads the attribute of a local variable. -/
def variableAttribute : Compile VariableKind := do
  if ← accept (.sign .less) then
    let name ← expectName
    expect (.sign .greater)
    if name == "const".toUTF8 then return .constant
    else if name == "close".toUTF8 then return .toBeClosed
    else failPlain (.unknownAttribute name)
  else return .regular

/-- The literal that an expression is known to be at compile time. -/
def knownLiteral? (e : Expr) : Compile (Option Literal) := do
  if e.hasJumps then return none
  match e.kind with
  | .compileTime position => return some ((← get).locals.getD position default).value
  | _ => return e.literal?

/-- Reads the declaration of local variables. -/
def localVariables (inner : Reader) : Compile Unit := do
  let firstIndex := (← fn).activeCount
  let (count, toClose) ← repeatWith (0, (none : Option Nat)) fun (count, toClose) => do
    let name ← expectName
    let index ← declare name
    let kind ← variableAttribute
    modifyVariable index fun v => { v with kind }
    let toClose ← if kind == .toBeClosed then
        if toClose.isSome then failPlain .severalToClose
        pure (some (firstIndex + count))
      else pure toClose
    if ← accept (.sign .comma) then return .yield (count + 1, toClose)
    else return .done (count + 1, toClose)
  let (values, last) ← if ← accept (.sign .assign) then expressionList inner
    else pure (0, { kind := .void })
  let lastIndex := firstIndex + count - 1
  let isConstant := values == count && (← variableAt lastIndex).kind == .constant
  match ← if isConstant then knownLiteral? last else pure none with
  | some value =>
    modifyVariable lastIndex fun v => { v with kind := .compileTime, value }
    activate (count - 1)
    activateConstant
  | none =>
    adjustCount count values last
    activate count
  match toClose with
  | some index =>
    markToClose
    emit' (.toBeClosed (← levelOf index))
  | none => return

/-- Reads the declaration of a local function. -/
def localFunction (inner : Reader) : Compile Unit := do
  let index ← declare (← expectName)
  activate 1
  discard (functionBody inner false (← line))
  -- The variable counts as described from here on.
  match (← variableAt index).described with
  | some d =>
    let pc ← position
    modifyProto fun p => { p with locals := p.locals.modify d fun r => { r with first := pc } }
  | none => return

/-- Reads the definition of a function. -/
def functionStatement (inner : Reader) (openLine : Nat) : Compile Unit := do
  advance
  let first ← nameToExpr (← expectName)
  let target ← repeatWith first fun e => do
    if ← isAt (.sign .dot) then return .yield (← fieldSelector e) else return .done e
  let isMethod ← isAt (.sign .colon)
  let target ← if isMethod then fieldSelector target else pure target
  let body ← functionBody inner isMethod openLine
  checkAssignable target
  store target body
  fixLine openLine

/-! ### Jumps and labels -/

/-- Reads a jump to a label. -/
def gotoStatement : Compile Unit := do
  let l ← line
  let name ← expectName
  match ← findLabel? name with
  | none => addGoto name l [← jump]
  | some label =>
    let level ← levelOf label.activeCount
    if (← activeRegisters) > level then emit' (.close level)
    let pc ← jump
    patch [pc] (label.places.headD 0)

/-- Reads a jump out of a loop. -/
def breakStatement : Compile Unit := do
  let l ← line
  advance
  addGoto breakName l [← jump]

/-- Reads a label after its name. -/
def labelStatement (inner : Reader) (name : Bytes) (l : Nat) : Compile Unit := do
  expect (.sign .doubleColon)
  repeatWhile do
    match ← current with
    | .sign .semicolon | .sign .doubleColon =>
      inner.statement
      return true
    | _ => return false
  match ← findLabel? name with
  | some other => failPlain (.labelRepeated name other.line)
  | none => discard (addLabel name l (← blockFollows false))

/-! ### Conditions and loops -/

/-- Reads a condition and gives the jumps that are taken if it is false. -/
def condition (inner : Reader) : Compile (List Nat) := do
  let e ← expression inner
  return (← goIfTrue e).whenFalse

/-- Reads a loop with a condition in front. -/
def whileStatement (inner : Reader) (openLine : Nat) : Compile Unit := do
  advance
  let start ← here
  let out ← condition inner
  enterBlock true
  expect (.word .do)
  innerBlock inner
  let back ← jump
  patch [back] start
  expectClosing (.word .end) (.word .while) openLine
  leaveBlock
  patchHere out

/-- Reads a loop with a condition at its end. -/
def repeatStatement (inner : Reader) (openLine : Nat) : Compile Unit := do
  let start ← here
  enterBlock true
  enterBlock false
  advance
  statements inner
  expectClosing (.word .until) (.word .repeat) openLine
  let out ← condition inner
  let scope ← block
  leaveBlock
  let out ← if scope.captured then do
      let exit ← jump
      patchHere out
      emit' (.close (← levelOf scope.activeCount))
      let again ← jump
      patchHere [exit]
      pure [again]
    else pure out
  patch out start
  leaveBlock

/-- Reads the body of a counting or iterating loop over `count` variables. -/
def forBody (inner : Reader) (base loopLine count : Nat) (iterating : Bool) : Compile Unit := do
  expect (.word .do)
  let prepare ← emit (if iterating then .genericPrep base 0 else .forPrep base 0)
  enterBlock false
  activate count
  reserve count
  innerBlock inner
  leaveBlock
  let endOfBody ← here
  if iterating then
    setInstr prepare (.genericPrep base endOfBody)
    emit' (.genericCall base count)
    fixLine loopLine
    emit' (.genericLoop base (prepare + 1))
    fixLine loopLine
  else
    setInstr prepare (.forPrep base (endOfBody + 1))
    emit' (.forLoop base (prepare + 1))
    fixLine loopLine

/-- The name of the variables that hold the state of a loop. -/
def loopStateName : String := "(for state)"

/-- Reads an expression into the next register. -/
def placedExpression (inner : Reader) : Compile Unit := do
  discard (toNextRegister (← expression inner))

/-- Reads a counting loop after its variable. -/
def countingLoop (inner : Reader) (name : Bytes) (loopLine : Nat) : Compile Unit := do
  let base ← firstFree
  for _ in [0:3] do declareHidden loopStateName
  discard (declare name)
  expect (.sign .assign)
  placedExpression inner
  expect (.sign .comma)
  placedExpression inner
  if ← accept (.sign .comma) then placedExpression inner
  else
    emit' (.load (← firstFree) (.int 1))
    reserve 1
  activate 3
  forBody inner base loopLine 1 false

/-- Reads an iterating loop after its first variable. -/
def iteratingLoop (inner : Reader) (name : Bytes) : Compile Unit := do
  let base ← firstFree
  for _ in [0:4] do declareHidden loopStateName
  discard (declare name)
  let count ← repeatWith 1 fun count => do
    if ← accept (.sign .comma) then
      discard (declare (← expectName))
      return .yield (count + 1)
    else return .done count
  expect (.word .in)
  let loopLine ← line
  let (values, last) ← expressionList inner
  adjustCount 4 values last
  activate 4
  markToClose
  checkFrame 3
  forBody inner base loopLine count true

/-- Reads a loop with `for`. -/
def forStatement (inner : Reader) (openLine : Nat) : Compile Unit := do
  enterBlock true
  advance
  let name ← expectName
  match ← current with
  | .sign .assign => countingLoop inner name openLine
  | .sign .comma | .word .in => iteratingLoop inner name
  | _ => fail .assignOrInExpected
  expectClosing (.word .end) (.word .for) openLine
  leaveBlock

/-- Reads a condition with its block, and gives the jumps around the blocks that follow. -/
def conditionalBlock (inner : Reader) : Compile (List Nat) := do
  advance
  let e ← expression inner
  expect (.word .then)
  let finish (skip : List Nat) : Compile (List Nat) := do
    statements inner
    leaveBlock
    let around ← match ← current with
      | .word .else | .word .elseif => pure [← jump]
      | _ => pure []
    patchHere skip
    return around
  if ← isAt (.word .break) then
    -- The condition itself jumps out of the loop.
    let l ← line
    let e ← goIfFalse e
    advance
    enterBlock false
    addGoto breakName l e.whenTrue
    repeatWhile (accept (.sign .semicolon))
    if ← blockFollows false then
      leaveBlock
      return []
    else finish [← jump]
  else
    let e ← goIfTrue e
    enterBlock false
    finish e.whenFalse

/-- Reads a choice between blocks. -/
def ifStatement (inner : Reader) (openLine : Nat) : Compile Unit := do
  let first ← conditionalBlock inner
  let around ← repeatWith first fun around => do
    if ← isAt (.word .elseif) then return .yield ((← conditionalBlock inner) ++ around)
    else return .done around
  if ← accept (.word .else) then innerBlock inner
  expectClosing (.word .end) (.word .if) openLine
  patchHere around

/-! ### Statements -/

/-- Reads the values that a function returns. -/
def returnStatement (inner : Reader) : Compile Unit := do
  let first ← activeRegisters
  if (← blockFollows true) || (← isAt (.sign .semicolon)) then
    emit' (.ret first (some 0))
  else
    let (count, last) ← expressionList inner
    if last.isMulti then
      setResults last none
      let inScopeToClose := (← block).insideToClose
      match last.kind with
      | .call pc =>
        if count == 1 && !inScopeToClose then
          match ← instrAt pc with
          | .call a args _ => setInstr pc (.tailCall a args)
          | _ => pure ()
      | _ => pure ()
      emit' (.ret first none)
    else if count == 1 then
      let (_, r) ← toAnyRegister last
      emit' (.ret r (some 1))
    else
      discard (toNextRegister last)
      emit' (.ret first (some count))
  discard (accept (.sign .semicolon))

/-- Reads one statement. -/
def statement (inner : Reader) : Compile Unit := do
  let openLine ← line
  match ← current with
  | .sign .semicolon => advance
  | .word .if => ifStatement inner openLine
  | .word .while => whileStatement inner openLine
  | .word .do =>
    advance
    innerBlock inner
    expectClosing (.word .end) (.word .do) openLine
  | .word .for => forStatement inner openLine
  | .word .repeat => repeatStatement inner openLine
  | .word .function => functionStatement inner openLine
  | .word .local =>
    advance
    if ← accept (.word .function) then localFunction inner else localVariables inner
  | .sign .doubleColon =>
    advance
    labelStatement inner (← expectName) openLine
  | .word .return =>
    advance
    returnStatement inner
  | .word .break => breakStatement
  | .word .goto =>
    advance
    gotoStatement
  | _ => callOrAssignment inner
  setFree (← activeRegisters)

end PixelHost.Lua.Compile
