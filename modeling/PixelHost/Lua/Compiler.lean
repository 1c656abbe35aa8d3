import PixelHost.Lua.Code
import PixelHost.Lua.Lexer

/-!
# The state of compilation

A source text is compiled in one pass: each construct is turned into instructions as its tokens are
read. The state holds the cursor, the function being compiled with those around it, and the
variables, labels and pending jumps in scope. The operations here append instructions, resolve
jumps and allot registers.

Jumps that are not resolved yet are kept as lists of instruction positions. A jump that is taken
only if the test before it fails or holds is resolved through that test, which may still choose to
keep the tested value.

## Main definitions

* `Lua.FunctionState`, `Lua.Compiler`, `Lua.Compile` — the state and its monad.
* `Lua.Compile.emit`, `Lua.Compile.jump`, `Lua.Compile.patch` — instructions and jumps.
* `Lua.Compile.reserve`, `Lua.Compile.release` — registers.
-/

namespace PixelHost.Lua

/-- A block of a function: what was in scope where it began, and what its end must do. -/
structure Block where
  firstLabel : Nat
  firstGoto : Nat
  activeCount : Nat
  /-- A variable of the block is captured by a closure. -/
  captured : Bool := false
  isLoop : Bool := false
  /-- The block stands in the scope of a variable that is to be closed. -/
  insideToClose : Bool := false
  deriving Inhabited

/-- A local variable. A compile-time constant has a value in place of a register. -/
structure Variable where
  name : Bytes
  kind : VariableKind := .regular
  register : Nat := 0
  value : Literal := .nil
  /-- The position of the variable among the described locals of its function. -/
  described : Option Nat := none
  deriving Inhabited

/-- A label, or a jump to a label that is not known yet. -/
structure Label where
  name : Bytes
  /-- The position of a label; the jumps of a pending `goto`. -/
  places : List Nat
  line : Nat
  activeCount : Nat
  /-- The jump leaves the scope of a captured variable. -/
  close : Bool := false
  deriving Inhabited

/-- A function that is being compiled. -/
structure FunctionState where
  proto : Prototype := {}
  blocks : List Block := []
  /-- The last position that a jump may reach; instructions before it must not be merged. -/
  lastTarget : Nat := 0
  freeRegister : Nat := 0
  activeCount : Nat := 0
  firstVariable : Nat := 0
  firstLabel : Nat := 0
  deriving Inhabited

/-- The state of compilation. -/
structure Compiler where
  source : Bytes
  cursor : Cursor := {}
  token : Token := .eof
  ahead : Option Token := none
  /-- The line of the last token that was consumed. -/
  lastLine : Nat := 1
  fn : FunctionState := {}
  outer : List FunctionState := []
  locals : Array Variable := #[]
  gotos : Array Label := #[]
  labels : Array Label := #[]

instance : Inhabited Compiler := ⟨{ source := .empty }⟩

/-- Compilation changes the state, or stops at a fault of the source text. -/
abbrev Compile := EStateM SyntaxError Compiler

/-- The most local variables of a function. -/
def maxLocals : Nat := 200

/-- The most captured variables of a function. -/
def maxUpvalues : Nat := 255

/-- The most registers of a function. -/
def maxRegisters : Nat := 255

/-- How deep statements and expressions may be nested. -/
def maxNesting : Nat := 199

/-- The number of list items of a table constructor that are stored at once. -/
def itemsPerFlush : Nat := 50

namespace Compile

/-! ### Tokens -/

/-- Stops with a fault at the current token. -/
def fail {α : Type} (fault : SyntaxFault) : Compile α := do
  let s ← get
  throw ⟨fault, s.cursor.line, some s.token.near⟩

/-- Stops with a fault that is not about the current token. -/
def failPlain {α : Type} (fault : SyntaxFault) : Compile α := do
  let s ← get
  throw ⟨fault, s.cursor.line, none⟩

/-- Reads a token at the cursor. -/
def readToken : Compile Token := do
  let s ← get
  match Lexer.token s.source s.cursor with
  | .ok (t, c) =>
    set { s with cursor := c }
    return t
  | .error e => throw e

/-- Moves on to the next token. -/
def advance : Compile Unit := do
  modify fun s => { s with lastLine := s.cursor.line }
  match (← get).ahead with
  | some t => modify fun s => { s with token := t, ahead := none }
  | none =>
    let t ← readToken
    modify fun s => { s with token := t }

/-- The token after the current one. -/
def lookahead : Compile Token := do
  match (← get).ahead with
  | some t => return t
  | none =>
    let t ← readToken
    modify fun s => { s with ahead := some t }
    return t

/-- The current token. -/
def current : Compile Token := return (← get).token

/-- The line reached by reading. -/
def line : Compile Nat := return (← get).cursor.line

/-- The current token is a given sign or word. -/
def isAt (t : Token) : Compile Bool := return (← get).token == t

/-- Moves past a token if it is the current one. -/
def accept (t : Token) : Compile Bool := do
  if ← isAt t then
    advance
    return true
  else return false

/-- The current token must be a given one. -/
def check (t : Token) : Compile Unit := do
  unless ← isAt t do fail (.expected t)

/-- Moves past a token that must be there. -/
def expect (t : Token) : Compile Unit := do
  check t
  advance

/-- Moves past a token that must close what another token opened at a line. -/
def expectClosing (what opener : Token) (openLine : Nat) : Compile Unit := do
  unless ← accept what do
    if openLine == (← line) then fail (.expected what)
    else fail (.expectedToClose what opener openLine)

/-- Moves past a name and gives it. -/
def expectName : Compile Bytes := do
  match ← current with
  | .name s =>
    advance
    return s
  | _ => fail (.expected (.name .empty))

/-! ### The function being compiled -/

/-- Changes the function being compiled. -/
@[inline] def modifyFn (f : FunctionState → FunctionState) : Compile Unit :=
  modify fun s => { s with fn := f s.fn }

/-- Changes the prototype of the function being compiled. -/
@[inline] def modifyProto (f : Prototype → Prototype) : Compile Unit :=
  modifyFn fun fn => { fn with proto := f fn.proto }

/-- The function being compiled. -/
@[inline] def fn : Compile FunctionState := return (← get).fn

/-- The position of the next instruction. -/
def position : Compile Nat := return (← get).fn.proto.code.size

/-- Stops because a limit of the function is passed. -/
def failLimit {α : Type} (what : String) (limit : Nat) : Compile α := do
  let place := match (← fn).proto.lineDefined with
    | 0 => FunctionPlace.main
    | n => .definedAt n
  fail (.tooMany what limit place)

/-- A count must not be above a limit of the function. -/
def checkLimit (count limit : Nat) (what : String) : Compile Unit := do
  if count > limit then failLimit what limit

/-! ### Instructions and jumps -/

/-- Appends an instruction and gives its position. -/
def emit (i : Instr) : Compile Nat := do
  let pc ← position
  modify fun s => { s with fn := { s.fn with proto := { s.fn.proto with
    code := s.fn.proto.code.push i, lines := s.fn.proto.lines.push s.lastLine } } }
  return pc

/-- Appends an instruction. -/
def emit' (i : Instr) : Compile Unit := discard (emit i)

/-- Gives the last instruction a line. -/
def fixLine (l : Nat) : Compile Unit :=
  modifyProto fun p => { p with lines := p.lines.set! (p.lines.size - 1) l }

/-- The instruction at a position. -/
def instrAt (pc : Nat) : Compile Instr := return (← get).fn.proto.code.getD pc .varargPrep

/-- Replaces the instruction at a position. -/
def setInstr (pc : Nat) (i : Instr) : Compile Unit :=
  modifyProto fun p => { p with code := p.code.set! pc i }

/-- Takes the last instruction away. -/
def dropLast : Compile Unit :=
  modifyProto fun p => { p with code := p.code.pop, lines := p.lines.pop }

/-- Marks the position of the next instruction as one that jumps may reach. -/
def here : Compile Nat := do
  let pc ← position
  modifyFn fun f => { f with lastTarget := pc }
  return pc

/-- The last instruction, unless a jump may reach the position after it. -/
def previous? : Compile (Option Instr) := do
  let f ← fn
  let pc := f.proto.code.size
  if pc > f.lastTarget then return some (← instrAt (pc - 1)) else return none

/-- Appends a jump without a target yet. -/
def jump : Compile Nat := emit (.jump 0)

/-- The instruction is a test, which skips the jump after it. -/
def isTest : Instr → Bool
  | .compare _ _ _ _ | .test _ _ | .testSet _ _ _ => true
  | _ => false

/-- The position of the test that controls a jump, or of the jump itself. -/
def controlOf (pc : Nat) : Compile Nat := do
  if pc ≥ 1 then
    if isTest (← instrAt (pc - 1)) then return pc - 1
  return pc

/-- Lets the test that controls a jump keep its value in a register, or not keep it at all; false if
it keeps no value anyway. -/
def patchTest (pc : Nat) (register : Option Nat) : Compile Bool := do
  let control ← controlOf pc
  match ← instrAt control with
  | .testSet _ b expected =>
    match register with
    | some r =>
      if r ≠ b then setInstr control (.testSet r b expected)
      else setInstr control (.test b expected)
    | none => setInstr control (.test b expected)
    return true
  | _ => return false

/-- Sets the target of a jump. -/
def setTarget (pc target : Nat) : Compile Unit := setInstr pc (.jump target)

/-- Resolves jumps: those that keep a value in a register go to one target, the others to a second
one. -/
def patchBoth (jumps : List Nat) (register : Option Nat) (kept plain : Nat) : Compile Unit :=
  jumps.forM fun pc => do
    if ← patchTest pc register then setTarget pc kept else setTarget pc plain

/-- Resolves jumps to a target; no value is kept. -/
def patch (jumps : List Nat) (target : Nat) : Compile Unit := patchBoth jumps none target target

/-- Resolves jumps to the next instruction. -/
def patchHere (jumps : List Nat) : Compile Unit := do
  let target ← here
  patch jumps target

/-- Some jump of the list does not bring the value it tested. -/
def someNeedValue : List Nat → Compile Bool
  | [] => return false
  | pc :: rest => do
    match ← instrAt (← controlOf pc) with
    | .testSet _ _ _ => someNeedValue rest
    | _ => return true

/-- The tests of the jumps keep no values. -/
def dropValues (jumps : List Nat) : Compile Unit :=
  jumps.forM fun pc => discard (patchTest pc none)

/-! ### Registers -/

/-- The variable of the function at an index. -/
def variableAt (index : Nat) : Compile Variable := do
  let s ← get
  return s.locals.getD (s.fn.firstVariable + index) default

/-- The number of registers that the first variables of the function take. -/
def levelOf : Nat → Compile Nat
  | 0 => return 0
  | n + 1 => do
    let v ← variableAt n
    if v.kind == .compileTime then levelOf n else return v.register + 1

/-- The number of registers that the active variables take. -/
def activeRegisters : Compile Nat := do levelOf (← fn).activeCount

/-- The frame must have room for more registers. -/
def checkFrame (n : Nat) : Compile Unit := do
  let f ← fn
  let size := f.freeRegister + n
  if size > f.proto.frameSize then
    if size ≥ maxRegisters then fail .tooManyRegisters
    modifyProto fun p => { p with frameSize := size }

/-- Takes the next registers. -/
def reserve (n : Nat) : Compile Unit := do
  checkFrame n
  modifyFn fun f => { f with freeRegister := f.freeRegister + n }

/-- Gives back the last register, if it is a temporary one. -/
def releaseRegister (r : Nat) : Compile Unit := do
  if r ≥ (← activeRegisters) then
    modifyFn fun f => { f with freeRegister := f.freeRegister - 1 }

/-- Sets the first free register. -/
def setFree (r : Nat) : Compile Unit := modifyFn fun f => { f with freeRegister := r }

/-- The first free register. -/
def firstFree : Compile Nat := return (← get).fn.freeRegister

/-- Appends the loading of `nil` into registers, together with such a loading right before. -/
def emitNil (first count : Nat) : Compile Unit := do
  let last := first + count - 1
  match ← previous? with
  | some (.loadNil a n) =>
    let b := a + n - 1
    if (a ≤ first && first ≤ b + 1) || (first ≤ a && a ≤ last + 1) then
      let start := min a first
      setInstr ((← position) - 1) (.loadNil start (max b last + 1 - start))
    else emit' (.loadNil first count)
  | _ => emit' (.loadNil first count)

end Compile

end PixelHost.Lua
