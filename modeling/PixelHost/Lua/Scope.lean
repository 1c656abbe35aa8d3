import PixelHost.Lua.Expression

/-!
# Scopes of names

Variables, labels and blocks of the function being compiled. A name stands for the innermost active
variable of that name; a variable of a function further out is captured, function by function, down
to the one that uses it. A name without a variable is a field of the variable `_ENV`.

## Main definitions

* `Lua.Compile.declare`, `Lua.Compile.activate` — new variables.
* `Lua.Compile.nameToExpr` — what a name stands for.
* `Lua.Compile.enterBlock`, `Lua.Compile.leaveBlock` — blocks.
* `Lua.Compile.addGoto`, `Lua.Compile.addLabel` — jumps to labels.
-/

namespace PixelHost.Lua.Compile

/-! ### Variables -/

/-- Declares a variable of the function and gives its index; it is not active yet. -/
def declare (name : Bytes) (kind : VariableKind := .regular) : Compile Nat := do
  let s ← get
  let index := s.locals.size - s.fn.firstVariable
  checkLimit (index + 1) maxLocals "local variables"
  modify fun s => { s with locals := s.locals.push { name, kind } }
  return index

/-- Declares a variable that the program cannot name. -/
def declareHidden (name : String) : Compile Unit := discard (declare name.toUTF8)

/-- Changes a variable of the function. -/
def modifyVariable (index : Nat) (f : Variable → Variable) : Compile Unit :=
  modify fun s => { s with locals := s.locals.modify (s.fn.firstVariable + index) f }

/-- Makes the next declared variables active, in the registers after those of the active ones. -/
def activate (count : Nat) : Compile Unit := do
  let mut register ← activeRegisters
  for _ in [0:count] do
    let f ← fn
    let index := f.activeCount
    let v ← variableAt index
    let described := f.proto.locals.size
    let range : LocalRange := ⟨v.name, register, f.proto.code.size, 0⟩
    modifyFn fun f => { f with
      activeCount := index + 1
      proto := { f.proto with locals := f.proto.locals.push range } }
    let r := register
    modifyVariable index fun v => { v with register := r, described := some described }
    register := register + 1

/-- Makes the next declared variable active without a register. -/
def activateConstant : Compile Unit :=
  modifyFn fun f => { f with activeCount := f.activeCount + 1 }

/-- Ends the scope of the variables from an index on. -/
def deactivateTo (level : Nat) : Compile Unit := do
  let f ← fn
  for index in [level:f.activeCount] do
    match (← variableAt index).described with
    | some d =>
      modifyProto fun p => { p with
        locals := p.locals.modify d fun r => { r with last := p.code.size } }
    | none => pure ()
  modify fun s => { s with
    locals := s.locals.shrink (s.locals.size - (f.activeCount - level))
    fn := { s.fn with activeCount := level } }

/-- The index of the innermost active variable of a name among the first `n` of a function. -/
def findActive? (locals : Array Variable) (first : Nat) (name : Bytes) : Nat → Option Nat
  | 0 => none
  | n + 1 =>
    if (locals.getD (first + n) default).name == name then some n
    else findActive? locals first name n

/-- The block in which the variable at an index was declared notes that it is captured. -/
def markCaptured (index : Nat) : List Block → List Block
  | [] => []
  | b :: rest =>
    if b.activeCount > index then b :: markCaptured index rest
    else { b with captured := true } :: rest

/-- What a name stands for in a function: nothing, a variable or a constant. The functions are the
one that uses the name and those around it, from the inside out; they note what is captured. -/
def resolve (locals : Array Variable) (name : Bytes) (inner : Bool) :
    List FunctionState → Except SyntaxFault (ExprKind × List FunctionState)
  | [] => .ok (.void, [])
  | f :: outer =>
    match findActive? locals f.firstVariable name f.activeCount with
    | some index =>
      let v := locals.getD (f.firstVariable + index) default
      if v.kind == .compileTime then .ok (.compileTime (f.firstVariable + index), f :: outer)
      else
        let f := if inner then f else { f with blocks := markCaptured index f.blocks }
        .ok (.local v.register index, f :: outer)
    | none =>
      match f.proto.upvalues.findIdx? (·.name == name) with
      | some u => .ok (.upvalue u, f :: outer)
      | none => do
        let (kind, outer) ← resolve locals name false outer
        let capture (source : UpvalueSource) :
            Except SyntaxFault (ExprKind × List FunctionState) :=
          let u := f.proto.upvalues.size
          if u + 1 > maxUpvalues then
            let place := match f.proto.lineDefined with
              | 0 => FunctionPlace.main
              | n => .definedAt n
            .error (.tooMany "upvalues" maxUpvalues place)
          else
            .ok (.upvalue u, { f with
              proto := { f.proto with upvalues := f.proto.upvalues.push source } } :: outer)
        match kind, outer with
        | .local r index, g :: _ =>
          capture ⟨name, true, r, (locals.getD (g.firstVariable + index) default).kind⟩
        | .upvalue u, g :: _ =>
          capture ⟨name, false, u, (g.proto.upvalues.getD u default).kind⟩
        | kind, outer => .ok (kind, f :: outer)

/-- What a name stands for, if it is a variable. -/
def lookUp (name : Bytes) : Compile ExprKind := do
  let s ← get
  match resolve s.locals name true (s.fn :: s.outer) with
  | .error fault => fail fault
  | .ok (kind, f :: outer) =>
    set { s with fn := f, outer }
    return kind
  | .ok (kind, []) => return kind

/-- The name of the variable whose fields the global names are. -/
def environmentName : Bytes := "_ENV".toUTF8

/-- What a name stands for: a variable, or a field of the environment. -/
def nameToExpr (name : Bytes) : Compile Expr := do
  match ← lookUp name with
  | .void =>
    let environment ← toRegisterOrUpvalue { kind := ← lookUp environmentName }
    index environment { kind := .lit (.str name) }
  | kind => return { kind }

/-- The name of a variable that may not be assigned to, if the expression is one. -/
def readOnlyName? (e : Expr) : Compile (Option Bytes) := do
  match e.kind with
  | .compileTime position => return some ((← get).locals.getD position default).name
  | .local _ index =>
    let v ← variableAt index
    return if v.kind == .regular then none else some v.name
  | .upvalue u =>
    let source := (← fn).proto.upvalues.getD u default
    return if source.kind == .regular then none else some source.name
  | _ => return none

/-- An expression must not be a constant variable. -/
def checkAssignable (e : Expr) : Compile Unit := do
  match ← readOnlyName? e with
  | some name => failPlain (.assignToConst name)
  | none => return

/-! ### Blocks and labels -/

/-- Changes the innermost block. -/
def modifyBlock (f : Block → Block) : Compile Unit :=
  modifyFn fun fn => { fn with
    blocks := match fn.blocks with
      | [] => []
      | b :: rest => f b :: rest }

/-- The innermost block. -/
def block : Compile Block := return (← fn).blocks.headD default

/-- Begins a block. -/
def enterBlock (isLoop : Bool) : Compile Unit := do
  let s ← get
  let inside := match s.fn.blocks with
    | b :: _ => b.insideToClose
    | [] => false
  let b : Block := {
    firstLabel := s.labels.size
    firstGoto := s.gotos.size
    activeCount := s.fn.activeCount
    isLoop
    insideToClose := inside }
  modifyFn fun f => { f with blocks := b :: f.blocks }

/-- The label that ends a loop. -/
def breakName : Bytes := "break".toUTF8

/-- Notes a jump to a label that is to come. -/
def addGoto (name : Bytes) (l : Nat) (places : List Nat) : Compile Unit := do
  let active := (← fn).activeCount
  modify fun s => { s with gotos := s.gotos.push ⟨name, places, l, active, false⟩ }

/-- Resolves the pending jumps of the innermost block to a label; true if one of them leaves the
scope of a captured variable. -/
def solveGotos (label : Label) : Compile Bool := do
  let first := (← block).firstGoto
  let gotos := (← get).gotos
  let mine := (gotos.extract first gotos.size).filter (·.name == label.name)
  let others := (gotos.extract first gotos.size).filter (·.name != label.name)
  for g in mine do
    if g.activeCount < label.activeCount then
      let v ← variableAt g.activeCount
      failPlain (.jumpIntoScope g.name g.line v.name)
    patch g.places (label.places.headD 0)
  modify fun s => { s with gotos := gotos.extract 0 first ++ others }
  return mine.any (·.close)

/-- Places a label at the next instruction; true if it had to close variables. A label at the end
of a block counts as outside the scope of the block's variables. -/
def addLabel (name : Bytes) (l : Nat) (atEnd : Bool) : Compile Bool := do
  let pc ← here
  let active ← if atEnd then pure (← block).activeCount else pure (← fn).activeCount
  let label : Label := ⟨name, [pc], l, active, false⟩
  modify fun s => { s with labels := s.labels.push label }
  if ← solveGotos label then
    emit' (.close (← activeRegisters))
    return true
  else return false

/-- The label of a name that is visible in the function. -/
def findLabel? (name : Bytes) : Compile (Option Label) := do
  let s ← get
  return (s.labels.extract s.fn.firstLabel s.labels.size).find? (·.name == name)

/-- Stops because a pending jump has no label. -/
def failGoto {α : Type} (g : Label) : Compile α :=
  if g.name == breakName then failPlain (.breakOutsideLoop g.line)
  else failPlain (.labelMissing g.name g.line)

/-- Pending jumps of a block that ends belong to the block around it. -/
def moveGotosOut (b : Block) : Compile Unit := do
  let outerLevel ← levelOf b.activeCount
  let gotos := (← get).gotos
  let mut moved := gotos.extract 0 b.firstGoto
  for g in gotos.extract b.firstGoto gotos.size do
    let close := g.close || ((← levelOf g.activeCount) > outerLevel && b.captured)
    moved := moved.push { g with close, activeCount := b.activeCount }
  modify fun s => { s with gotos := moved }

/-- Ends the innermost block. -/
def leaveBlock : Compile Unit := do
  let b ← block
  let isOutermost := (← fn).blocks.length ≤ 1
  let level ← levelOf b.activeCount
  -- The levels of pending jumps are counted while the variables are still known.
  unless isOutermost do moveGotosOut b
  deactivateTo b.activeCount
  let closed ← if b.isLoop then addLabel breakName 0 false else pure false
  if !closed && !isOutermost && b.captured then emit' (.close level)
  setFree level
  modify fun s => { s with labels := s.labels.shrink b.firstLabel }
  modifyFn fun f => { f with blocks := f.blocks.drop 1 }
  if isOutermost then
    match (← get).gotos[b.firstGoto]? with
    | some g => failGoto g
    | none => return

/-- A variable of the innermost block is to be closed. -/
def markToClose : Compile Unit :=
  modifyBlock fun b => { b with captured := true, insideToClose := true }

end PixelHost.Lua.Compile
