import PixelHost.Lua.Library.Argument

/-!
# The table library

The functions of `table`. They work through the metamethods of the tables they are given.

Sorting divides at the median of the first, the middle and the last element, and continues with the
smaller part first. The order function may be inconsistent; that is reported only when a search
runs over the end of its part.

## Main definitions

* `Lua.Library.Tables.run` — carries out a function of `table`.
* `Lua.Library.Tables.sortRange` — sorting.
-/

namespace PixelHost.Lua.Library.Tables

open Run

/-- An argument that is a table, with its length. -/
def sized (c : Caller) (args : Args) (n : Nat) : Run (Value × Int64) := do
  discard (args.table n)
  return (args.val n, ← c.lengthOf (args.val n))

/-- The strings of a list with a separator in between. -/
def concat (c : Caller) (args : Args) : Run (Array Value) := do
  let (t, length) ← sized c args 1
  let separator ← args.stringOr 2 .empty
  let first ← args.integerOr 3 1
  let last ← args.integerOr 4 length
  let rec join (i : Int64) (acc : Bytes) : Nat → Run Bytes
    | 0 => return acc
    | n + 1 => do
      let v ← c.element t (.int i)
      match v.asString? with
      | none => fail s!"invalid value ({v.typeName}) at index {i.toInt} in table for 'concat'"
      | some s =>
        demand (acc.size + s.size)
        let acc := acc ++ s
        if n = 0 then return acc else join (i + 1) (acc ++ separator) n
  let s ← join first .empty (last.toInt - first.toInt + 1).toNat
  return #[← newString s]

/-- Moves elements one place up, the last one first. -/
def moveUp (c : Caller) (t : Value) (last : Int64) : Nat → Run Unit
  | 0 => return
  | n + 1 => do
    c.setElement t (.int last) (← c.element t (.int (last - 1)))
    moveUp c t (last - 1) n

/-- Moves elements one place down, the first one first. -/
def moveDown (c : Caller) (t : Value) (first : Int64) : Nat → Run Unit
  | 0 => return
  | n + 1 => do
    c.setElement t (.int first) (← c.element t (.int (first + 1)))
    moveDown c t (first + 1) n

/-- Inserts an element at a place, by default at the end. -/
def insert (c : Caller) (args : Args) : Run (Array Value) := do
  let (t, length) ← sized c args 1
  let next := length + 1
  match args.size with
  | 2 => c.setElement t (.int next) (args.val 2)
  | 3 =>
    let pos ← args.integer 2
    Args.require 2 (pos.toUInt64 - 1 < next.toUInt64) "position out of bounds"
    moveUp c t next (next.toInt - pos.toInt).toNat
    c.setElement t (.int pos) (args.val 3)
  | _ => fail "wrong number of arguments to 'insert'"
  return #[]

/-- Removes the element at a place, by default the last one. -/
def remove (c : Caller) (args : Args) : Run (Array Value) := do
  let (t, length) ← sized c args 1
  let pos ← args.integerOr 2 length
  if pos != length then
    Args.require 2 (pos.toUInt64 - 1 ≤ length.toUInt64) "position out of bounds"
  let removed ← c.element t (.int pos)
  moveDown c t pos (length.toInt - pos.toInt).toNat
  c.setElement t (.int (max pos length)) .nil
  return #[removed]

/-- Copies elements, from the first one on or from the last one back. -/
def copy (c : Caller) (source dest : Value) (from' to' : Int64) (step : Int64) : Nat → Run Unit
  | 0 => return
  | n + 1 => do
    c.setElement dest (.int to') (← c.element source (.int from'))
    copy c source dest (from' + step) (to' + step) step n

/-- Moves elements within a table or to another one. -/
def move (c : Caller) (args : Args) : Run (Array Value) := do
  let first ← args.integer 2
  let last ← args.integer 3
  let target ← args.integer 4
  let position := if args.isNone 5 then 1 else 5
  unless args.val 1 matches .str _ do discard (args.table 1)
  discard (args.table position)
  let source := args.val 1
  let dest := args.val position
  if last ≥ first then
    Args.require 3 (first > 0 || last.toInt < Int64.maxValue.toInt + first.toInt) "too many elements to move"
    let count := (last.toInt - first.toInt + 1).toNat
    Args.require 4 (target.toInt ≤ Int64.maxValue.toInt - Int.ofNat count + 1) "destination wrap around"
    let apart := target > last || target ≤ first
    let apart ← if apart then pure true
      else if position == 1 then pure false
      else pure !(← c.holds .equal source dest)
    if apart then copy c source dest first target 1 count
    else copy c source dest last (target + Int64.ofNat (count - 1)) (-1) count
  return #[dest]

/-- The list of the arguments with its length. -/
def pack (args : Args) : Run (Array Value) := do
  let t := { Table.ofSequence args with capacity := 1 }
  let r ← newTable (t.setStr "n" (.ofNat args.size))
  return #[.table r]

/-- The elements of a list. -/
def unpack (c : Caller) (args : Args) : Run (Array Value) := do
  let t := args.val 1
  let first ← args.integerOr 2 1
  let last ← if args.isNone 3 then c.lengthOf t else args.integer 3
  if first > last then return #[]
  else
    let count := (last.toInt - first.toInt + 1).toNat
    let m ← get
    if count + (← topFloor) ≥ maxStack || m.lacks (16 * count) then
      fail "too many results to unpack"
    let rec collect (i : Int64) (acc : Array Value) : Nat → Run (Array Value)
      | 0 => return acc
      | n + 1 => do collect (i + 1) (acc.push (← c.element t (.int i))) n
    collect first (Array.mkEmpty count) count

/-! ### Sorting -/

/-- The first of two elements comes before the second. -/
def before (c : Caller) (order : Value) (a b : Value) : Run Bool := do
  if order.isNil then c.holds .less a b else return (← c.callOne order #[a, b]).truthy

/-- An element of the list. -/
def elementAt (c : Caller) (t : Value) (i : Nat) : Run Value := c.element t (.ofNat i)

/-- Assigns two elements of the list. -/
def setTwo (c : Caller) (t : Value) (i : Nat) (a : Value) (j : Nat) (b : Value) : Run Unit := do
  c.setElement t (.ofNat i) a
  c.setElement t (.ofNat j) b

/-- The first element from `i + 1` on that does not come before the pivot, and its place. -/
def searchUp (c : Caller) (t order pivot : Value) (up i : Nat) : Nat → Run (Nat × Value)
  | 0 => return (i, .nil)
  | n + 1 => do
    let i := i + 1
    let a ← elementAt c t i
    if ← before c order a pivot then
      if i == up - 1 then fail "invalid order function for sorting"
      searchUp c t order pivot up i n
    else return (i, a)

/-- The first element from `j - 1` down that the pivot does not come before, and its place. -/
def searchDown (c : Caller) (t order pivot : Value) (i j : Nat) : Nat → Run (Nat × Value)
  | 0 => return (j, .nil)
  | n + 1 => do
    let j := j - 1
    let a ← elementAt c t j
    if ← before c order pivot a then
      if j < i then fail "invalid order function for sorting"
      searchDown c t order pivot i j n
    else return (j, a)

/-- Divides a part of the list at a pivot, and gives the place of the pivot. -/
def partition (c : Caller) (t order pivot : Value) (up i j : Nat) : Nat → Run Nat
  | 0 => return i
  | n + 1 => do
    let (i, a) ← searchUp c t order pivot up i (up + 1)
    let (j, b) ← searchDown c t order pivot i j (up + 2)
    if j < i then
      setTwo c t (up - 1) a i pivot
      return i
    else
      setTwo c t i b j a
      partition c t order pivot up i j n

/-- Sorts the elements at the places from `lo` to `up`; the number `n` bounds the divisions. -/
def sortRange (c : Caller) (t order : Value) : (n lo up : Nat) → Run Unit
  | 0, _, _ => return
  | n + 1, lo, up => do
    if lo < up then
      let a ← elementAt c t lo
      let b ← elementAt c t up
      if ← before c order b a then setTwo c t lo b up a
      if up - lo > 1 then
        let p := (lo + up) / 2
        let mid ← elementAt c t p
        let low ← elementAt c t lo
        if ← before c order mid low then setTwo c t p low lo mid
        else
          let high ← elementAt c t up
          if ← before c order high mid then setTwo c t p high up mid
        if up - lo > 2 then
          let pivot ← elementAt c t p
          let last ← elementAt c t (up - 1)
          setTwo c t p last (up - 1) pivot
          let p ← partition c t order pivot up lo (up - 1) (up + 1)
          if p - lo < up - p then
            sortRange c t order n lo (p - 1)
            sortRange c t order n (p + 1) up
          else
            sortRange c t order n (p + 1) up
            sortRange c t order n lo (p - 1)

/-- Sorts a list, by an order function if one is given. -/
def sort (c : Caller) (args : Args) : Run (Array Value) := do
  let (t, length) ← sized c args 1
  if length > 1 then
    Args.require 1 (length.toInt < 0x7FFFFFFF) "array too big"
    unless args.isNone 2 do discard (args.function 2)
    let n := length.toInt.toNat
    sortRange c t (args.val 2) n 1 n
  return #[]

/-- Carries out a function of `table`. -/
def run (c : Caller) (f : TableFn) (args : Args) : Run (Array Value) :=
  match f with
  | .concat => concat c args
  | .insert => insert c args
  | .move => move c args
  | .pack => pack args
  | .remove => remove c args
  | .sort => sort c args
  | .unpack => unpack c args

end PixelHost.Lua.Library.Tables
