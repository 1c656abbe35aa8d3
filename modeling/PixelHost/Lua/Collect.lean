import PixelHost.Lua.Machine

/-!
# Counting memory

The memory that a machine has in use is that of everything that can be reached from the global
names, the running functions and the values in use outside. It is counted when more was taken than
the machine may take; what cannot be reached is emptied then. A place is never used again, so that a
reference means the same for all time. A reference counts wherever it stands, also in a table that a
script wants to be weak, and nothing runs when a table with a finalizer is emptied.

## Main definitions

* `Lua.Marking` — what was reached so far.
* `Lua.Machine.marking` — everything that can be reached.
* `Lua.Machine.recounted` — the memory in use counted and the rest emptied.
* `Lua.Run.collect` — stops if more memory is in use than may be taken.
-/

namespace PixelHost.Lua

/-- A place of the heap. -/
inductive Place where
  | table (r : TableRef)
  | cell (r : CellRef)
  | thread (r : ThreadRef)

/-- What was reached: the places, the functions by number, the strings, and the memory they take.
`fresh` holds the places whose contents are not reached yet. -/
structure Marking where
  tables : Array Bool
  cells : Array Bool
  threads : Array Bool
  functions : Std.HashSet Nat := ∅
  strings : Std.HashSet Bytes := ∅
  bytes : Nat := 0
  fresh : Array Place := #[]

namespace Marking

/-- The memory of a coroutine without its stack. -/
def threadBytes : Nat := 1024

/-- The memory of an activation. -/
def frameBytes : Nat := 64

/-- Reaches a captured variable. -/
def markCell (k : Marking) (r : CellRef) : Marking :=
  if k.cells.getD r true then k
  else { k with
    cells := k.cells.setIfInBounds r true
    fresh := k.fresh.push (.cell r)
    bytes := k.bytes + 40 }

/-- Reaches a table. -/
def markTable (k : Marking) (r : TableRef) : Marking :=
  if k.tables.getD r true then k
  else { k with tables := k.tables.setIfInBounds r true, fresh := k.fresh.push (.table r) }

/-- Reaches a coroutine. -/
def markThread (k : Marking) (r : ThreadRef) : Marking :=
  if k.threads.getD r true then k
  else { k with
    threads := k.threads.setIfInBounds r true
    fresh := k.fresh.push (.thread r)
    bytes := k.bytes + threadBytes }

/-- Reaches a function of the program. It counts once. -/
def markClosure (k : Marking) (f : Closure) : Marking :=
  let k :=
    if k.functions.contains f.id then k
    else { k with
      functions := k.functions.insert f.id
      bytes := k.bytes + 32 + 8 * f.upvalues.size }
  f.upvalues.foldl markCell k

/-- Reaches a value. -/
def markValue (k : Marking) (v : Value) : Marking :=
  match v with
  | .str s =>
    if k.strings.contains s then k
    else { k with strings := k.strings.insert s, bytes := k.bytes + Run.stringBytes s.size }
  | .table r => k.markTable r
  | .closure f => k.markClosure f
  | .native (.wrapped r) => k.markThread r
  | .thread r => k.markThread r
  | _ => k

/-- Reaches all values of an array. -/
def markValues (k : Marking) (vs : Array Value) : Marking := vs.foldl markValue k

/-- Reaches a value in use outside of the machine. A program that is held there counts with its
code. -/
def markHeld (k : Marking) (v : Value) : Marking :=
  match v with
  | .closure f =>
    let k := k.markClosure f
    { k with bytes := k.bytes + f.proto.bytes }
  | v => k.markValue v

/-- Reaches what an activation holds. -/
def markFrame (k : Marking) (f : Frame) : Marking :=
  let k := { k with bytes := k.bytes + frameBytes }
  let k := match f.activity with
    | .program c _ extra => (k.markClosure c).markValues extra
    | .native f args => (k.markValue (.native f)).markValues args
  match f.continuation with
  | .closingReturn _ results => k.markValues results
  | _ => k

/-- Reaches a stack with its activations: the slots in use, or all of them. -/
def markStack (all : Bool) (k : Marking) (stack : Array Value) (top : Nat) (frames : List Frame)
    (openCells : List (Nat × CellRef)) : Marking :=
  let inUse := if all then stack.size else match frames with
    | f :: _ => max f.floor top
    | [] => top
  let k := { k with bytes := k.bytes + 16 * stack.size }
  let k := stack.foldl markValue k 0 inUse
  let k := openCells.foldl (fun k (_, r) => k.markCell r) k
  frames.foldl markFrame k

/-- Reaches the contents of a place. -/
def markContents (all : Bool) (m : Machine) (k : Marking) (p : Place) : Marking :=
  match p with
  | .table r =>
    let t := m.tables.getD r default
    let k := { k with bytes := k.bytes + t.bytes }
    let k := (k.markValues t.array).markValues t.keys
    let k := k.markValues t.values
    match t.metatable with
    | some mt => k.markTable mt
    | none => k
  | .cell r =>
    match m.cells.getD r default with
    | .closed v => k.markValue v
    | .inStack thread _ => k.markThread thread
  | .thread r =>
    if r == m.thread then k
    else
      let t := m.threads.getD r default
      let k := k.markValue t.entry
      let k := match t.failure with
        | some v => k.markValue v
        | none => k
      k.markStack all t.stack t.top t.frames t.openCells

/-- Reaches all that can be reached, in at most `n` rounds. -/
def close (all : Bool) (m : Machine) : Nat → Marking → Marking
  | 0, k => k
  | n + 1, k =>
    if k.fresh.isEmpty then k
    else
      let fresh := k.fresh
      close all m n (fresh.foldl (markContents all m) { k with fresh := #[] })

end Marking

/-- All that can be reached, from the slots of stacks that are in use or from all of them. Each round
but the last reaches a new place. -/
def Machine.marking (all : Bool) (m : Machine) : Marking :=
  let k : Marking := {
    tables := Array.replicate m.tables.size false
    cells := Array.replicate m.cells.size false
    threads := Array.replicate m.threads.size false }
  let k := ((k.markTable m.globals).markTable m.loaded).markTable m.stringMetatable
  let k := m.held.foldl Marking.markHeld (k.markThread m.thread)
  let k := m.waiting.foldl Marking.markThread k
  let k := k.markStack all m.stack m.top m.frames m.openCells
  k.close all m (m.tables.size + m.cells.size + m.threads.size + 1)

/-- The contents of places, with nothing left in those that are not marked. -/
def clear {α : Type} (marks : Array Bool) (empty : α) (contents : Array α) : Array α :=
  contents.mapIdx fun i a => if marks.getD i true then a else empty

/-- The machine with the memory in use counted. Places that cannot be reached, not even from a slot
that was in use once, are emptied, unless a library function holds values that the heap does not know
of. -/
def Machine.recounted (m : Machine) : Machine :=
  let m := { m with charge := (m.marking false).bytes }
  if m.holding > 0 then m
  else
    let k := m.marking true
    { m with
      tables := clear k.tables {} m.tables
      cells := clear k.cells (.closed .nil) m.cells
      threads := clear k.threads {} m.threads }

namespace Run

/-- Counts the memory in use. -/
def recount : Run Unit := modify Machine.recounted

/-- Stops if more memory is in use than may be taken. -/
def collect : Run Unit := do
  recount
  let m ← get
  if m.lacks m.charge then throw .memory

end Run

end PixelHost.Lua
