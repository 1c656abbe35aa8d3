import PixelHost.Lua.Table

/-!
# The machine

The state in which programs run: the heap with its tables, captured variables and coroutines, the
stack of the running coroutine, the functions that are being carried out on it, and the count of
the memory in use.

A function of a program works on a window of the stack, its registers. A variable that was captured
while its register is in use stays there and is reached by its place; when the register goes out of
scope the variable moves into the heap.

Each activation says how its results are handed to the one below it. So a metamethod, an iterator or
a protected call is an activation like any other, and a coroutine can be suspended inside of it. A
library function that needs a result before it can go on runs its call to the end in a run of its
own; a coroutine cannot be suspended across that.

Two things that a script may ask for by a metatable have no effect here: nothing is called for a table
with a finalizer (`__gc`) when it is emptied, and a table that is to be weak (`__mode`) holds on to its
keys and values like any other.

## Main definitions

* `Lua.Continuation`, `Lua.Activity`, `Lua.Frame` — activations.
* `Lua.Cell`, `Lua.Thread` — captured variables and coroutines.
* `Lua.Machine` — the state.
* `Lua.Fault`, `Lua.Run` — computations on the state.
-/

namespace PixelHost.Lua

/-! ### Activations -/

/-- How the results of an activation are handed to the one below. -/
inductive Continuation where
  /-- To registers from a slot of the stack on; `none` takes all of them. -/
  | results (slot : Nat) (wanted : Option Nat)
  /-- The first result to a slot. -/
  | value (slot : Nat)
  | ignore
  /-- The first result decides whether the jump that follows is taken. -/
  | test (expected : Bool)
  /-- The first result is the last part of a concatenation of `count` values from a slot on. -/
  | concat (slot count : Nat)
  /-- A variable was closed; those from a slot on are next. -/
  | closing (level : Nat)
  /-- A variable was closed; those from a slot on are next, and then the function returns. -/
  | closingReturn (level : Nat) (results : Array Value)
  /-- The results of a protected call. -/
  | guarded
  /-- Three results are the results of the activation below. -/
  | firstThree
  /-- The end of a run. -/
  | done
  deriving Inhabited

/-- What is carried out: a function of a program on the registers from a base on, with the arguments
beyond its parameters, or a library function with its arguments. -/
inductive Activity where
  | program (f : Closure) (base : Nat) (extra : Array Value)
  | native (f : Native) (args : Array Value)
  deriving Inhabited

/-- An activation. -/
structure Frame where
  activity : Activity
  continuation : Continuation
  /-- Where the activation below goes on. -/
  returnTo : Nat
  /-- The first slot of the stack that is free for calls. -/
  floor : Nat
  /-- How deep calls of library functions and metamethods are nested. -/
  depth : Nat
  /-- The function took the place of the one that called it. -/
  isTail : Bool := false
  deriving Inhabited

/-! ### The heap -/

/-- A captured variable: in a slot of the stack of a coroutine, or by itself. -/
inductive Cell where
  | inStack (thread : ThreadRef) (slot : Nat)
  | closed (v : Value)

instance : Inhabited Cell := ⟨.closed .nil⟩

/-- Whether a coroutine can go on. -/
inductive ThreadStatus where
  | suspended | running | normal | dead
  deriving DecidableEq, Repr, Inhabited

/-- The part of the state that belongs to one coroutine. -/
structure Thread where
  status : ThreadStatus := .suspended
  /-- The function to start with; `nil` once it has started. -/
  entry : Value := .nil
  stack : Array Value := #[]
  top : Nat := 0
  pc : Nat := 0
  frames : List Frame := []
  /-- The slots of captured variables with their places in the heap, the highest first. -/
  openCells : List (Nat × CellRef) := []
  /-- The slots of variables that are to be closed, the highest first. -/
  toClose : List Nat := []
  /-- How many runs that cannot be suspended are under way. -/
  pinned : Nat := 0
  /-- The error that ended the coroutine. -/
  failure : Option Value := none
  deriving Inhabited

/-- The state of an iteration over matches. -/
structure MatchState where
  text : Bytes := .empty
  pattern : Bytes := .empty
  /-- Where the next search begins. -/
  position : Nat := 0
  /-- Where the last match ended. -/
  lastEnd : Option Nat := none
  deriving Inhabited

/-- The state of a machine. -/
structure Machine where
  tables : Array Table := #[]
  cells : Array Cell := #[]
  threads : Array Thread := #[{ status := .running }]
  iterations : Array MatchState := #[]
  /-- The number of the next function. -/
  nextId : Nat := 0
  /-- The memory that was taken since it was last counted. -/
  charge : Nat := 0
  /-- The memory that may be taken; `none` if there is no bound. -/
  limit : Option Nat := none
  /-- Values that are in use outside of the machine. -/
  held : Array Value := #[]
  /-- The running coroutine; its part of the state is in the fields below. -/
  thread : ThreadRef := 0
  stack : Array Value := #[]
  top : Nat := 0
  pc : Nat := 0
  frames : List Frame := []
  openCells : List (Nat × CellRef) := []
  toClose : List Nat := []
  pinned : Nat := 0
  /-- The running function of a program, with its code and its registers. -/
  closure : Closure := {}
  code : Array Instr := #[]
  base : Nat := 0
  /-- How many library functions hold values that the heap does not know of. -/
  holding : Nat := 0
  /-- The coroutines that wait for the running one, the innermost first. -/
  waiting : List ThreadRef := []
  /-- The number of instructions of the main coroutine until the next check of the budget. -/
  untilCheck : Nat := 0
  /-- The number of instructions between two checks; `0` if there is no budget. -/
  checkInterval : Nat := 0
  /-- The instructions that are left. -/
  budget : Int := 0
  /-- The budget in the message that it is used up. -/
  budgetLimit : Nat := 0
  globals : TableRef := 0
  /-- The libraries by name. -/
  loaded : TableRef := 0
  stringMetatable : TableRef := 0
  /-- What was printed. -/
  output : Bytes := .empty
  /-- The time in milliseconds. -/
  clock : Nat := 0
  random : UInt64 × UInt64 × UInt64 × UInt64 := (1, 2, 3, 4)

instance : Inhabited Machine := ⟨{}⟩

/-- An amount of memory is more than may be taken. -/
@[inline] def Machine.lacks (m : Machine) (n : Nat) : Bool :=
  match m.limit with
  | some limit => n > limit
  | none => false

/-! ### Computations -/

/-- Why a computation stops. A raised value can be caught; so can the lack of memory. A run that
takes more steps than it is given cannot be caught. -/
inductive Fault where
  /-- An error value; `handled` tells that it went through the handler of its protected call. -/
  | raised (v : Value) (handled : Bool)
  | memory
  /-- An error in the handling of an error. -/
  | inHandler
  /-- The rounds are used up. Nothing catches that, and nobody is told. -/
  | outOfSteps
  deriving Inhabited

/-- A computation on a machine. -/
abbrev Run := EStateM Fault Machine

/-- What a machine asks for when it cannot go on by itself. -/
inductive Request where
  | go
  /-- The library function of the top activation is to be carried out. -/
  | native (f : Native) (args : Array Value)
  /-- The top activation ends with results. -/
  | finish (results : Array Value)
  | returned (results : Array Value)
  | yielded (values : Array Value)
  deriving Inhabited

/-- How a run ends. -/
inductive Stop where
  | returned (results : Array Value)
  | yielded (values : Array Value)
  deriving Inhabited

/-- How a library function has calls carried out that it started. -/
structure Caller where
  /-- Goes on from a request until what was started returns or the coroutine is suspended. -/
  run : Request → Run Stop

/-- The most slots of a stack. -/
def maxStack : Nat := 1000000

/-- The slots beyond the limit that are left for the handling of an overflow. -/
def extraStack : Nat := 200

/-- How deep calls of library functions and metamethods may be nested. -/
def maxDepth : Nat := 200

namespace Run

/-! ### Memory -/

/-- Counts memory as taken. -/
@[inline] def charge (n : Nat) : Run Unit := modify fun m => { m with charge := m.charge + n }

/-- Stops at once if this much memory can never be had. -/
def demand (n : Nat) : Run Unit := do
  if (← get).lacks n then throw .memory

/-- The memory of a string. -/
@[inline] def stringBytes (n : Nat) : Nat := 25 + n

/-- A string that was made just now. -/
@[inline] def newString (s : Bytes) : Run Value := do
  charge (stringBytes s.size)
  return .str s

/-! ### Tables -/

/-- The table at a place. -/
@[inline] def tableAt (r : TableRef) : Run Table := return (← get).tables.getD r default

/-- Puts a table into the heap. -/
def newTable (t : Table) : Run TableRef := do
  charge t.bytes
  let r := (← get).tables.size
  modify fun m => { m with tables := m.tables.push t }
  return r

/-- Changes the table at a place. -/
@[inline] def modifyTable (r : TableRef) (f : Table → Table) : Run Unit := do
  let before := (← tableAt r).bytes
  modify fun m => { m with tables := m.tables.modify r f }
  let after := (← tableAt r).bytes
  if after > before then charge (after - before)

/-- Reads a table without metamethods. -/
@[inline] def rawGet (r : TableRef) (k : Value) : Run Value := return (← tableAt r).get k

/-- Writes to a table without metamethods. The key is neither `nil` nor a not-a-number. -/
@[inline] def rawSet (r : TableRef) (k v : Value) : Run Unit := modifyTable r (·.set k v)

/-- The metatable of a value. -/
def metatable? (v : Value) : Run (Option TableRef) := do
  match v with
  | .table r => return (← tableAt r).metatable
  | .str _ => return some (← get).stringMetatable
  | _ => return none

/-- The metamethod of a value, `nil` if it has none. -/
def metamethod (v : Value) (event : Bytes) : Run Value := do
  match ← metatable? v with
  | some mt => return (← tableAt mt).getStr event
  | none => return .nil

/-! ### Registers and captured variables -/

/-- The value in a slot of the stack. -/
@[inline] def slot (i : Nat) : Run Value := return (← get).stack.getD i .nil

/-- Writes a slot of the stack. -/
@[inline] def setSlot (i : Nat) (v : Value) : Run Unit :=
  modify fun m => { m with stack := m.stack.setIfInBounds i v }

/-- The value of a register. -/
@[inline] def register (r : Nat) : Run Value := do
  let m ← get
  return m.stack.getD (m.base + r) .nil

/-- Writes a register. -/
@[inline] def setRegister (r : Nat) (v : Value) : Run Unit :=
  modify fun m => { m with stack := m.stack.setIfInBounds (m.base + r) v }

/-- The value of an operand. -/
@[inline] def operand (x : Operand) : Run Value :=
  match x with
  | .reg r => register r
  | .lit l => return .ofLiteral l

/-- The values of slots. -/
def slots (first count : Nat) : Run (Array Value) := do
  let m ← get
  let found := m.stack.extract first (first + count)
  if found.size < count then return found ++ Array.replicate (count - found.size) .nil
  else return found

/-- Puts a cell into the heap. -/
def newCell (c : Cell) : Run CellRef := do
  charge 40
  let r := (← get).cells.size
  modify fun m => { m with cells := m.cells.push c }
  return r

/-- The value of a captured variable. -/
@[inline] def cellValue (r : CellRef) : Run Value := do
  let m ← get
  match m.cells.getD r default with
  | .closed v => return v
  | .inStack thread i =>
    if thread == m.thread then return m.stack.getD i .nil
    else return (m.threads.getD thread default).stack.getD i .nil

/-- Writes a captured variable. -/
def setCell (r : CellRef) (v : Value) : Run Unit := do
  let m ← get
  match m.cells.getD r default with
  | .closed _ => set { m with cells := m.cells.setIfInBounds r (.closed v) }
  | .inStack thread i =>
    if thread == m.thread then set { m with stack := m.stack.setIfInBounds i v }
    else
      let change (t : Thread) : Thread := { t with stack := t.stack.setIfInBounds i v }
      set { m with threads := m.threads.modify thread change }

/-- The cell of a slot, which is made if the slot is not captured yet. -/
def captureSlot (i : Nat) : Run CellRef := do
  let rec insert (fresh : Run CellRef) : List (Nat × CellRef) →
      Run (CellRef × List (Nat × CellRef))
    | [] => do
      let r ← fresh
      return (r, [(i, r)])
    | (j, c) :: rest => do
      if j == i then return (c, (j, c) :: rest)
      else if j < i then
        let r ← fresh
        return (r, (i, r) :: (j, c) :: rest)
      else
        let (r, rest) ← insert fresh rest
        return (r, (j, c) :: rest)
  let m ← get
  let (r, openCells) ← insert (newCell (.inStack m.thread i)) m.openCells
  modify fun m => { m with openCells }
  return r

/-- Moves the captured variables from a slot on into the heap. -/
def closeCells (level : Nat) : Run Unit := do
  match (← get).openCells with
  | [] => return
  | openCells =>
    let inScope := openCells.takeWhile (·.1 ≥ level)
    unless inScope.isEmpty do
      modify fun m => { m with
        cells := inScope.foldl (fun cells (i, r) =>
          cells.setIfInBounds r (.closed (m.stack.getD i .nil))) m.cells
        openCells := openCells.drop inScope.length }

/-- The number of the next function. -/
def freshId : Run Nat := do
  let id := (← get).nextId
  modify fun m => { m with nextId := id + 1 }
  return id

/-! ### Errors -/

/-- Stops with an error value. The value that the lack of memory is reported by stands for it. -/
def raise {α : Type} (v : Value) : Run α :=
  match v with
  | .str s => if s == "not enough memory".toUTF8 then throw .memory else throw (.raised v false)
  | v => throw (.raised v false)

/-- The place where the activation at a level is, as `chunk:line:`; empty for a library function. -/
def whereAt (level : Nat) : Run Bytes := do
  let m ← get
  match m.frames.drop level with
  | ⟨.program f _ _, _, _, _, _, _⟩ :: _ =>
    let pc := match level with
      | 0 => m.pc
      | n + 1 => match m.frames[n]? with
        | some callee => callee.returnTo
        | none => 0
    let line := f.proto.lineAt (pc - 1)
    return f.proto.chunk ++ ":".toUTF8 ++ (toString line).toUTF8 ++ ": ".toUTF8
  | _ => return .empty

/-- Stops with a message, with the place of the running function if it is one of a program. -/
def raiseHere {α : Type} (message : Bytes) : Run α := do
  raise (.str ((← whereAt 0) ++ message))

/-- Stops with a message of the running library function, with the place where it was called. -/
def raiseAtCaller {α : Type} (message : Bytes) : Run α := do
  raise (.str ((← whereAt 1) ++ message))

/-- Stops with a message of the running library function. -/
def fail {α : Type} (message : String) : Run α := raiseAtCaller message.toUTF8

end Run

end PixelHost.Lua
